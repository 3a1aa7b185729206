import TruckDrone.Binary64
import TruckDrone.Neighborhood.TwoOpt
import TruckDrone.Proofs.Admission
import TruckDrone.Proofs.Neighborhood.Exploration
import TruckDrone.Proofs.Neighborhood.Order
import TruckDrone.Proofs.Route

/-! Tail exchanges between routes of two vehicles, one by one: which there are, in which order
they are offered, and what each of them changes. -/

set_option autoImplicit false

namespace TruckDrone

open Sequence Sweep

variable {K : Type}

/-- An exchange of what follows customer `leftSplit` of one route, counted from 1, and
customer `rightSplit` of another. -/
structure TailExchange where
  left : Slot
  right : Slot
  leftSplit : Nat
  rightSplit : Nat
  deriving DecidableEq, Repr

namespace TailExchange

def rank (trucks : Nat) (move : TailExchange) : List Nat :=
  [move.left.vehicle.unified trucks, move.right.vehicle.unified trucks, move.left.position,
    move.right.position, move.leftSplit, move.rightSplit]

def leftBody (move : TailExchange) (left right : Route) : List Nat :=
  left.body.take move.leftSplit ++ right.body.drop move.rightSplit

def rightBody (move : TailExchange) (left right : Route) : List Nat :=
  right.body.take move.rightSplit ++ left.body.drop move.leftSplit

/-- The left vehicle comes before the right one in the fleet, both heads and both tails serve
someone, and each vehicle may serve whom it gets. -/
def Applies (problem : Problem K) (plan : Plan) (move : TailExchange) : Prop :=
  move.left.vehicle ∈ problem.fleet ∧ move.right.vehicle ∈ problem.fleet ∧
    move.left.vehicle.unified problem.trucks < move.right.vehicle.unified problem.trucks ∧
    ∃ left right, plan.occupant? move.left = some left ∧ plan.occupant? move.right = some right ∧
      (1 ≤ move.leftSplit ∧ move.leftSplit < left.size) ∧
      (1 ≤ move.rightSplit ∧ move.rightSplit < right.size) ∧
      (∀ id ∈ move.leftBody left right, problem.suits move.left.vehicle id = true) ∧
      ∀ id ∈ move.rightBody left right, problem.suits move.right.vehicle id = true

/-- The candidate has the exchanged routes, of the kinds of their vehicles, in both slots and
is as before elsewhere. The edge joins the customers before the splits. -/
def Yields (problem : Problem K) (plan : Plan) (move : TailExchange) (offer : Offer K) : Prop :=
  ∃ left right newLeft newRight, plan.occupant? move.left = some left ∧
    plan.occupant? move.right = some right ∧
    newLeft.kind = move.left.vehicle.kind ∧ newLeft.body = move.leftBody left right ∧
    newRight.kind = move.right.vehicle.kind ∧ newRight.body = move.rightBody left right ∧
    offer.candidate = problem.assess
      (plan.replace [(move.left, some newLeft), (move.right, some newRight)]) ∧
    ∃ a b, left.body[move.leftSplit - 1]? = some a ∧ right.body[move.rightSplit - 1]? = some b ∧
      offer.edge = .between a b

def ofRoutes (problem : Problem K) (left right : Slot × Route) : List TailExchange :=
  (span 1 left.2.size).flatMap fun i => (span 1 right.2.size).flatMap fun j =>
    let move : TailExchange := ⟨left.1, right.1, i, j⟩
    if (move.leftBody left.2 right.2).all (problem.suits left.1.vehicle) then
      if (move.rightBody left.2 right.2).all (problem.suits right.1.vehicle) then [move] else []
    else []

def all (problem : Problem K) (plan : Plan) : List TailExchange :=
  (TwoOpt.vehiclePairs problem.fleet).flatMap fun (u, v) =>
    (plan.slots u).flatMap fun left => (plan.slots v).flatMap fun right =>
      ofRoutes problem left right

/-! The two routes that an exchange makes. -/

theorem mem_of_joined {head tail : Route} {i j id : Nat}
    (member : id ∈ head.body.take i ++ tail.body.drop j) : id ∈ head.body ∨ id ∈ tail.body :=
  (List.mem_append.1 member).imp List.mem_of_mem_take List.mem_of_mem_drop

theorem served_joined {head tail : Route} {i j : Nat} :
    ∀ id ∈ head.body.take i ++ tail.body.drop j, id ≠ depotId :=
  fun _ member => (mem_of_joined member).elim Route.ne_depot Route.ne_depot

theorem joined_ne_nil {head tail : Route} {i j : Nat} (starts : 1 ≤ i) (inHead : i ≤ head.size) :
    head.body.take i ++ tail.body.drop j ≠ [] := by
  intro empty
  have none := congrArg List.length (List.append_eq_nil_iff.1 empty).1
  rw [List.length_take_of_le inHead] at none
  simp only [List.length_nil] at none
  omega

theorem splice_stops {head tail : Route} {i j : Nat} (inHead : i ≤ head.size)
    (inTail : j ≤ tail.size) : TwoOpt.splice head.stops i tail.stops j =
      .ok (depotId :: (head.body.take i ++ tail.body.drop j) ++ [depotId]) := by
  rw [TwoOpt.splice, Route.upTo_stops inHead, Fault.ok_bind, Route.beyond_stops inTail,
    Fault.ok_bind, Fault.pure_eq_ok, List.cons_append, List.cons_append, List.append_assoc]

/-- Past the questions whom the vehicles may serve, an exchange is never refused: it is the
offer that it yields. -/
theorem exists_offer (problem : Problem K) {plan : Plan} (move : TailExchange) {left right : Route}
    (apart : move.left ≠ move.right) (holdsLeft : plan.occupant? move.left = some left)
    (holdsRight : plan.occupant? move.right = some right)
    (inLeft : 1 ≤ move.leftSplit ∧ move.leftSplit < left.size)
    (inRight : 1 ≤ move.rightSplit ∧ move.rightSplit < right.size) :
    ∃ offer : Offer K, move.Yields problem plan offer ∧ (do
      let firstStops ← lift (TwoOpt.splice left.stops move.leftSplit right.stops move.rightSplit)
      let secondStops ← lift (TwoOpt.splice right.stops move.rightSplit left.stops move.leftSplit)
      keepIf (← lift (problem.admitsAll move.left.vehicle firstStops))
      keepIf (← lift (problem.admitsAll move.right.vehicle secondStops))
      let half ← lift (plan.assign move.left firstStops)
      let whole ← lift (half.assign move.right secondStops)
      let a ← lift (entry left.stops move.leftSplit)
      let b ← lift (entry right.stops move.rightSplit)
      return (⟨problem.assess whole, .between a b⟩ : Offer K)) = (do
        keepIf (← lift (problem.admitsAll move.left.vehicle
          (depotId :: move.leftBody left right ++ [depotId])))
        keepIf (← lift (problem.admitsAll move.right.vehicle
          (depotId :: move.rightBody left right ++ [depotId])))
        return offer) := by
  have splitLeft := Route.getElem?_stops_of_pos inLeft.1 inLeft.2.le
  have splitRight := Route.getElem?_stops_of_pos inRight.1 inRight.2.le
  have leftInside : move.leftSplit < left.stops.length := by
    rw [Route.length_stops]
    omega
  have rightInside : move.rightSplit < right.stops.length := by
    rw [Route.length_stops]
    omega
  let newLeft := Route.ofIds move.left.vehicle.kind (move.leftBody left right)
  let newRight := Route.ofIds move.right.vehicle.kind (move.rightBody left right)
  have someLeft : move.leftBody left right ≠ [] := joined_ne_nil inLeft.1 inLeft.2.le
  have someRight : move.rightBody left right ≠ [] := joined_ne_nil inRight.1 inRight.2.le
  have keeps : Plan.Keeps [(move.left, some newLeft)] := by
    simp [Plan.Keeps]
  -- The left slot is settled before the right one, which still holds its route then.
  have stillHeld : (plan.replace [(move.left, some newLeft)]).occupant? move.right =
      some right := by
    rw [Plan.occupant?_replace_of_not_listed keeps _ (by simpa using apart.symm), holdsRight]
  let offer : Offer K :=
    ⟨problem.assess (plan.replace [(move.left, some newLeft), (move.right, some newRight)]),
      .between left.stops[move.leftSplit] right.stops[move.rightSplit]⟩
  have placed : (do
      let half ← lift (plan.assign move.left (depotId :: move.leftBody left right ++ [depotId]))
      let whole ← lift (half.assign move.right
        (depotId :: move.rightBody left right ++ [depotId]))
      let a ← lift (entry left.stops move.leftSplit)
      let b ← lift (entry right.stops move.rightSplit)
      return (⟨problem.assess whole, .between a b⟩ : Offer K)) =
        (pure offer : Sweep (Offer K)) := by
    rw [Plan.assign_eq_replace_some holdsLeft someLeft served_joined, lift_ok_bind,
      Plan.assign_eq_replace_some stillHeld someRight served_joined, lift_ok_bind,
      Plan.replace_replace keeps (by simpa using apart), entry_eq_ok leftInside, lift_ok_bind,
      entry_eq_ok rightInside, lift_ok_bind]
    rfl
  refine ⟨offer, ⟨left, right, newLeft, newRight, holdsLeft, holdsRight, rfl,
    Route.body_ofIds_of_served served_joined, rfl, Route.body_ofIds_of_served served_joined, rfl,
    _, _, splitLeft.symm.trans (List.getElem?_eq_getElem leftInside),
    splitRight.symm.trans (List.getElem?_eq_getElem rightInside), rfl⟩, ?_⟩
  rw [splice_stops inLeft.2.le inRight.2.le, splice_stops inRight.2.le inLeft.2.le, lift_ok_bind,
    lift_ok_bind, ← placed]
  rfl

/-! Which exchanges are offered. -/

theorem lt_size_joined {problem : Problem K} {head tail : Route}
    (knowsHead : ∀ id ∈ head.body, id < problem.size)
    (knowsTail : ∀ id ∈ tail.body, id < problem.size) {i j : Nat} :
    ∀ id ∈ depotId :: (head.body.take i ++ tail.body.drop j) ++ [depotId],
      id ≠ depotId → id < problem.size := by
  intro id member served
  rw [List.cons_append, List.mem_cons, List.mem_append, List.mem_singleton] at member
  rcases member with depot | joined | depot
  · exact absurd depot served
  · exact (mem_of_joined joined).elim (knowsHead id) (knowsTail id)
  · exact absurd depot served

theorem all_bounded {problem : Problem K} {vehicle : Vehicle} {ids : List Nat}
    (served : ∀ id ∈ ids, id ≠ depotId) :
    ((depotId :: ids ++ [depotId]).all fun id => id == depotId || problem.suits vehicle id) =
      ids.all (problem.suits vehicle) := by
  have inner : (ids.all fun id => id == depotId || problem.suits vehicle id) =
      ids.all (problem.suits vehicle) := by
    rw [Bool.eq_iff_iff, List.all_eq_true, List.all_eq_true]
    apply forall₂_congr
    intro id member
    rw [beq_false_of_ne (served id member), Bool.false_or]
  simp [List.all_append, inner]

theorem lists_ofRoutes {problem : Problem K} {plan : Plan} {left right : Slot × Route}
    (apart : left.1 ≠ right.1)
    (holdsLeft : plan.occupant? left.1 = some left.2)
    (holdsRight : plan.occupant? right.1 = some right.2) :
    Lists (problem.Knows plan) (Yields problem plan) (ofRoutes problem left right)
      (TwoOpt.exchanges problem plan left right) := by
  obtain ⟨leftSlot, leftRoute⟩ := left
  obtain ⟨rightSlot, rightRoute⟩ := right
  have leftBound : leftRoute.stops.length - 2 = leftRoute.size := by
    rw [Route.length_stops, Nat.add_sub_cancel]
  have rightBound : rightRoute.stops.length - 2 = rightRoute.size := by
    rw [Route.length_stops, Nat.add_sub_cancel]
  unfold TwoOpt.exchanges
  dsimp only
  rw [leftBound, rightBound]
  refine lists_each_bind fun i inLeft => lists_each_bind fun j inRight => ?_
  rw [mem_span] at inLeft inRight
  obtain ⟨offer, yields, same⟩ := exists_offer problem ⟨leftSlot, rightSlot, i, j⟩ apart
    holdsLeft holdsRight inLeft inRight
  dsimp only at same
  rw [same]
  refine lists_lift_bind (fun known => Problem.admitsAll_ne_error (lt_size_joined
    (fun _ => known.lt_size holdsLeft) fun _ => known.lt_size holdsRight)) fun answer asked => ?_
  rw [Problem.eq_all_of_admitsAll asked, leftBody, all_bounded served_joined]
  apply lists_keepIf_bind
  intro _
  refine lists_lift_bind (fun known => Problem.admitsAll_ne_error (lt_size_joined
    (fun _ => known.lt_size holdsRight) fun _ => known.lt_size holdsLeft)) fun answer asked => ?_
  rw [Problem.eq_all_of_admitsAll asked, rightBody, all_bounded served_joined]
  exact lists_keepIf_bind fun _ => lists_pure yields

theorem lists_all (problem : Problem K) (solution : Solution K) :
    Lists (problem.Knows solution.plan) (Yields problem solution.plan) (all problem solution.plan)
      (TwoOpt.tailExchanges problem solution) := by
  refine lists_each_bind fun ⟨u, v⟩ pair => lists_each_bind fun left inLeft =>
    lists_each_bind fun right inRight => ?_
  obtain ⟨ownsLeft, holdsLeft⟩ := Plan.mem_slots.1 inLeft
  obtain ⟨ownsRight, holdsRight⟩ := Plan.mem_slots.1 inRight
  have apart : left.1 ≠ right.1 := by
    intro same
    have ordered := ((TwoOpt.mem_vehiclePairs (pairwise_fleet _ _)).1 pair).2.2
    rw [← ownsLeft, ← ownsRight, same] at ordered
    exact Nat.lt_irrefl _ ordered
  exact lists_ofRoutes apart holdsLeft holdsRight

theorem mem_ofRoutes {problem : Problem K} {left right : Slot × Route} {move : TailExchange} :
    move ∈ ofRoutes problem left right ↔ move.left = left.1 ∧ move.right = right.1 ∧
      (1 ≤ move.leftSplit ∧ move.leftSplit < left.2.size) ∧
      (1 ≤ move.rightSplit ∧ move.rightSplit < right.2.size) ∧
      (∀ id ∈ move.leftBody left.2 right.2, problem.suits left.1.vehicle id = true) ∧
      ∀ id ∈ move.rightBody left.2 right.2, problem.suits right.1.vehicle id = true := by
  simp only [ofRoutes, List.mem_flatMap, mem_span, List.mem_ite_nil_right, List.mem_singleton,
    List.all_eq_true]
  constructor
  · rintro ⟨i, inLeft, j, inRight, suitsLeft, suitsRight, rfl⟩
    exact ⟨rfl, rfl, inLeft, inRight, suitsLeft, suitsRight⟩
  · obtain ⟨_, _, i, j⟩ := move
    rintro ⟨rfl, rfl, inLeft, inRight, suitsLeft, suitsRight⟩
    exact ⟨i, inLeft, j, inRight, suitsLeft, suitsRight, rfl⟩

theorem mem_all {problem : Problem K} {plan : Plan} {move : TailExchange} :
    move ∈ all problem plan ↔ move.Applies problem plan := by
  have sorted := pairwise_fleet problem.trucks problem.drones
  simp only [all, List.mem_flatMap, Prod.exists, Plan.mem_slots, mem_ofRoutes]
  constructor
  · rintro ⟨u, v, pair, _, left, ⟨rfl, holdsLeft⟩, _, right, ⟨rfl, holdsRight⟩, rfl, rfl, applies⟩
    obtain ⟨ownsLeft, ownsRight, ordered⟩ := (TwoOpt.mem_vehiclePairs sorted).1 pair
    exact ⟨ownsLeft, ownsRight, ordered, left, right, holdsLeft, holdsRight, applies⟩
  · rintro ⟨ownsLeft, ownsRight, ordered, left, right, holdsLeft, holdsRight, applies⟩
    exact ⟨_, _, (TwoOpt.mem_vehiclePairs sorted).2 ⟨ownsLeft, ownsRight, ordered⟩, move.left, left,
      ⟨rfl, holdsLeft⟩, move.right, right, ⟨rfl, holdsRight⟩, rfl, rfl, applies⟩

theorem pairwise_ofRoutes (problem : Problem K) (left right : Slot × Route) :
    (ofRoutes problem left right).Pairwise fun earlier later =>
      earlier.rank problem.trucks < later.rank problem.trucks := by
  apply pairwise_flatMap_of_groups (pairwise_span _ _)
  · intro i _
    apply pairwise_flatMap_of_groups (pairwise_span _ _)
    · intro j _
      dsimp only
      split
      · split
        · exact List.pairwise_singleton _ _
        · exact .nil
      · exact .nil
    · intro j _ later _ ordered x inFirst y inLater
      simp only [List.mem_ite_nil_right, List.mem_singleton] at inFirst inLater
      rw [inFirst.2.2, inLater.2.2]
      simp [rank, List.cons_lt_cons_iff, ordered]
  · intro i _ later _ ordered x inFirst y inLater
    obtain ⟨_, _, inFirst⟩ := List.mem_flatMap.1 inFirst
    obtain ⟨_, _, inLater⟩ := List.mem_flatMap.1 inLater
    simp only [List.mem_ite_nil_right, List.mem_singleton] at inFirst inLater
    rw [inFirst.2.2, inLater.2.2]
    simp [rank, List.cons_lt_cons_iff, ordered]

theorem pairwise_all (problem : Problem K) (plan : Plan) :
    (all problem plan).Pairwise fun earlier later =>
      earlier.rank problem.trucks < later.rank problem.trucks := by
  apply pairwise_flatMap_of_groups (TwoOpt.pairwise_vehiclePairs (pairwise_fleet _ _))
  · intro pair _
    apply pairwise_flatMap_of_groups (Plan.pairwise_slots plan _)
    · intro left inLeft
      apply pairwise_flatMap_of_groups (Plan.pairwise_slots plan _)
      · intro right _
        exact pairwise_ofRoutes problem left right
      · rintro ⟨first, _⟩ inFirst ⟨later, _⟩ inLater ordered x xFirst y yLater
        have atFirst := mem_ofRoutes.1 xFirst
        have atLater := mem_ofRoutes.1 yLater
        rw [rank, rank, atFirst.1, atFirst.2.1, atLater.1, atLater.2.1,
          (Plan.mem_slots.1 inFirst).1, (Plan.mem_slots.1 inLater).1]
        simp [List.cons_lt_cons_iff, ordered]
    · rintro ⟨first, _⟩ inFirst ⟨later, _⟩ inLater ordered x xFirst y yLater
      obtain ⟨⟨_, _⟩, inRight, xFirst⟩ := List.mem_flatMap.1 xFirst
      obtain ⟨⟨_, _⟩, inOther, yLater⟩ := List.mem_flatMap.1 yLater
      have atFirst := mem_ofRoutes.1 xFirst
      have atLater := mem_ofRoutes.1 yLater
      rw [rank, rank, atFirst.1, atFirst.2.1, atLater.1, atLater.2.1,
        (Plan.mem_slots.1 inFirst).1, (Plan.mem_slots.1 inLater).1,
        (Plan.mem_slots.1 inRight).1, (Plan.mem_slots.1 inOther).1]
      simp [List.cons_lt_cons_iff, ordered]
  · intro first _ later _ ordered x xFirst y yLater
    obtain ⟨⟨_, _⟩, inLeft, xFirst⟩ := List.mem_flatMap.1 xFirst
    obtain ⟨⟨_, _⟩, inRight, xFirst⟩ := List.mem_flatMap.1 xFirst
    obtain ⟨⟨_, _⟩, otherLeft, yLater⟩ := List.mem_flatMap.1 yLater
    obtain ⟨⟨_, _⟩, otherRight, yLater⟩ := List.mem_flatMap.1 yLater
    have atFirst := mem_ofRoutes.1 xFirst
    have atLater := mem_ofRoutes.1 yLater
    rw [rank, rank, atFirst.1, atFirst.2.1, atLater.1, atLater.2.1, (Plan.mem_slots.1 inLeft).1,
      (Plan.mem_slots.1 inRight).1, (Plan.mem_slots.1 otherLeft).1, (Plan.mem_slots.1 otherRight).1]
    rcases ordered with earlier | ⟨same, earlier⟩
    · exact List.cons_lt_cons_iff.2 (.inl earlier)
    · rw [same]
      exact List.cons_lt_cons_iff.2 (.inr ⟨rfl, List.cons_lt_cons_iff.2 (.inl earlier)⟩)

theorem nodup_all (problem : Problem K) (plan : Plan) : (all problem plan).Nodup := by
  apply (pairwise_all problem plan).imp
  rintro move _ earlier rfl
  exact List.lt_irrefl _ earlier

theorem Applies.apart {problem : Problem K} {plan : Plan} {move : TailExchange}
    (applies : move.Applies problem plan) : move.left ≠ move.right := by
  intro same
  have ordered := applies.2.2.1
  rw [same] at ordered
  exact Nat.lt_irrefl _ ordered

structure Exchanged (plan : Plan) (move : TailExchange) (offer : Offer K)
    (left right newLeft newRight : Route) : Prop where
  apart : move.left ≠ move.right
  inLeft : 1 ≤ move.leftSplit ∧ move.leftSplit < left.size
  inRight : 1 ≤ move.rightSplit ∧ move.rightSplit < right.size
  heldLeft : plan.occupant? move.left = some left
  heldRight : plan.occupant? move.right = some right
  bodyLeft : newLeft.body = move.leftBody left right
  bodyRight : newRight.body = move.rightBody left right
  nowLeft : offer.candidate.plan.occupant? move.left = some newLeft
  nowRight : offer.candidate.plan.occupant? move.right = some newRight
  stays : ∀ slot, slot ≠ move.left → slot ≠ move.right →
    offer.candidate.plan.occupant? slot = plan.occupant? slot
  edge : ∃ a b, left.body[move.leftSplit - 1]? = some a ∧
    right.body[move.rightSplit - 1]? = some b ∧ offer.edge = .between a b

theorem Yields.exchanged {problem : Problem K} {plan : Plan} {move : TailExchange} {offer : Offer K}
    (applies : move.Applies problem plan) (yields : move.Yields problem plan offer) :
    ∃ left right newLeft newRight, move.Exchanged plan offer left right newLeft newRight := by
  have apart := applies.apart
  obtain ⟨left, right, newLeft, newRight, holdsLeft, holdsRight, -, bodyLeft, -, bodyRight,
    candidate, edge⟩ := yields
  obtain ⟨-, -, -, _, _, presentLeft, presentRight, inLeft, inRight, -⟩ := applies
  cases holdsLeft.symm.trans presentLeft
  cases holdsRight.symm.trans presentRight
  have keeps : Plan.Keeps [(move.left, some newLeft), (move.right, some newRight)] := by
    simp [Plan.Keeps]
  obtain ⟨nowLeft, nowRight⟩ :=
    Plan.occupant?_replace_pair apart holdsLeft holdsRight newLeft newRight
  refine ⟨left, right, newLeft, newRight, apart, inLeft, inRight, holdsLeft, holdsRight, bodyLeft,
    bodyRight, ?nowLeft, ?nowRight, ?stays, edge⟩ <;> rw [candidate]
  case nowLeft => exact nowLeft
  case nowRight => exact nowRight
  case stays =>
    intro slot notLeft notRight
    exact Plan.occupant?_replace_of_not_listed keeps plan (by simp [notLeft, notRight])

theorem Yields.keeps {problem : Problem K} {plan : Plan} {move : TailExchange} {offer : Offer K}
    (yields : move.Yields problem plan offer) :
    offer.candidate.plan.trucks.length = plan.trucks.length ∧
      offer.candidate.plan.drones.length = plan.drones.length ∧
      ∀ vehicle, (offer.candidate.plan.routes vehicle).length = (plan.routes vehicle).length := by
  obtain ⟨_, _, newLeft, newRight, -, -, -, -, -, -, candidate, -⟩ := yields
  have keeps : Plan.Keeps [(move.left, some newLeft), (move.right, some newRight)] := by
    simp [Plan.Keeps]
  rw [candidate]
  exact ⟨Plan.length_trucks_replace .., Plan.length_drones_replace ..,
    Plan.length_routes_replace keeps plan⟩

theorem Yields.edge_ne_trivial {problem : Problem K} {plan : Plan} {move : TailExchange}
    {offer : Offer K} (yields : move.Yields problem plan offer) : offer.edge ≠ .trivial := by
  obtain ⟨left, _, _, _, -, -, -, -, -, -, -, a, b, present, -, edge⟩ := yields
  have served : a ≠ depotId := Route.ne_depot (List.mem_of_getElem? present)
  rw [edge]
  exact fun trivial => served (Edge.between_eq_trivial.1 trivial).1

end TailExchange

/-- Where every id is in the table, the exchanges that the vehicles may carry out are offered
one by one in the order of their ranks, and the aspiration is asked once about each. -/
theorem TwoOpt.tailExchanges_exact [Scalar K] (problem : Problem K) (solution : Solution K)
    (known : problem.Knows solution.plan) :
    ∃ moves : List TailExchange,
      (moves.Pairwise fun earlier later =>
        earlier.rank problem.trucks < later.rank problem.trucks) ∧
      (∀ move, move ∈ moves ↔ move.Applies problem solution.plan) ∧
      List.Forall₂ (TailExchange.Yields problem solution.plan) moves
        (tailExchanges problem solution).items ∧
      (∀ offer ∈ (tailExchanges problem solution).items,
        offer.candidate.plan.trucks.length = solution.plan.trucks.length ∧
        offer.candidate.plan.drones.length = solution.plan.drones.length ∧
        ∀ vehicle, (offer.candidate.plan.routes vehicle).length =
          (solution.plan.routes vehicle).length) ∧
      ∀ (aspiration : Aspiration K) (firstCall : Nat),
        (tailExchanges problem solution).explore aspiration firstCall =
          .ok (.scan aspiration firstCall (tailExchanges problem solution).items) ∧
        (Exploration.answers aspiration firstCall (tailExchanges problem solution).items).length =
          moves.length := by
  have listed := TailExchange.lists_all problem solution
  refine ⟨TailExchange.all problem solution.plan, TailExchange.pairwise_all ..,
    fun _ => TailExchange.mem_all, listed.all_listed known, fun offer member => ?_,
    fun aspiration firstCall => ⟨?_, ?_⟩⟩
  · obtain ⟨move, -, yields⟩ := listed.exists_of_mem member
    exact yields.keeps
  · exact Sweep.explore_of_clean (listed.clean known) aspiration firstCall
  · rw [Exploration.length_answers, ← (listed.all_listed known).length_eq]

theorem TwoOpt.tailExchanges_exact_truck_drone :
    let problem : Problem Binary64 :=
      ⟨[.depot 0 0, ⟨1, 0, 1, false⟩, ⟨2, 1, 0, true⟩, ⟨3, 1, 1, true⟩, ⟨4, 0, 0, true⟩], 1, 1, 0,
        fun _ => 0⟩
    let solution := problem.assess ⟨[[.truck [1, 2]]], [[.drone [3, 4]]]⟩
    problem.Knows solution.plan ∧ ∃ moves : List TailExchange,
      ⟨⟨.truck 0, 0⟩, ⟨.drone 0, 0⟩, 1, 1⟩ ∈ moves ∧
      List.Forall₂ (TailExchange.Yields problem solution.plan) moves
        (tailExchanges problem solution).items := by
  intro problem solution
  have known : problem.Knows solution.plan := by decide
  obtain ⟨moves, -, complete, yields, -⟩ := tailExchanges_exact problem solution known
  refine ⟨known, moves, (complete _).2 ?_, yields⟩
  exact ⟨by decide, by decide, by decide, .truck [1, 2], .drone [3, 4], rfl, rfl, by decide,
    by decide, by decide, by decide⟩

end TruckDrone
