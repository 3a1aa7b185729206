import Mathlib.Algebra.Order.Group.Multiset
import Mathlib.Logic.Relation
import TruckDrone.Proofs.Neighborhood.Relocation
import TruckDrone.Proofs.Neighborhood.Reversal
import TruckDrone.Proofs.Neighborhood.TailExchange
import TruckDrone.Proofs.Violation.Tally

/-! No move of either operator loses or repeats a visit, and none makes a solution worse than it
was in any other respect. So a search that starts at a feasible solution meets no other. -/

set_option autoImplicit false

namespace TruckDrone

open Violation

variable {K : Type} {problem : Problem K}

/-- The plan carries out the same visits, and its routes have no more defects of any kind. -/
structure Plan.Conserves (problem : Problem K) (before after : Plan) : Prop where
  trucks : after.trucks.length = before.trucks.length
  drones : after.drones.length = before.drones.length
  visits : (visits problem after).Perm (visits problem before)
  lighter : ∀ kind, after.load problem.fleet (weigh problem kind) ≤
    before.load problem.fleet (weigh problem kind)

/-- Whom a route serves, and how often, whichever vehicle it is of. -/
def Route.served (_ : Vehicle) (route : Route) : Multiset Nat := route.body

namespace Plan

theorem coe_visits (problem : Problem K) (plan : Plan) :
    (visits problem plan : Multiset Nat) = plan.load problem.fleet Route.served := by
  unfold Violation.visits held load
  induction problem.fleet.flatMap plan.slots with
  | nil => rfl
  | cons entry rest ih =>
    rw [List.flatMap_cons, ← Multiset.coe_add, ih, List.map_cons, List.sum_cons]
    rfl

/-- A replacement conserves a plan if the listed slots together do. -/
theorem conserves_replace {plan : Plan} {placed : List (Slot × Option Route)}
    (apart : (placed.map Prod.fst).Nodup)
    (occupied : ∀ entry ∈ placed,
      entry.1.vehicle ∈ problem.fleet ∧ (plan.occupant? entry.1).isSome)
    (bodies : installed placed Route.served = plan.displaced placed Route.served)
    (weights : ∀ kind,
      installed placed (weigh problem kind) ≤ plan.displaced placed (weigh problem kind)) :
    plan.Conserves problem (plan.replace placed) := by
  have distinct := nodup_fleet problem.trucks problem.drones
  constructor
  · exact length_trucks_replace plan placed
  · exact length_drones_replace plan placed
  -- The visits are a load too, in the multisets.
  · have moved := load_replace distinct plan apart occupied Route.served
    rw [bodies] at moved
    rw [← Multiset.coe_eq_coe, coe_visits, coe_visits]
    exact add_right_cancel moved
  · intro kind
    have moved := load_replace distinct plan apart occupied (weigh problem kind)
    have fewer := weights kind
    unfold Problem.fleet
    omega

end Plan

/-! What the routes of a move weigh. -/

variable {kind : Kind}

/-- A vehicle that may serve a customer has no defect there that another has not. -/
theorem faulty_of_suits {giver taker : Vehicle} {id : Nat} (suits : problem.suits taker id = true)
    (fault : faulty problem kind taker id = true) : faulty problem kind giver id = true := by
  cases kind with
  | unknownCustomer => exact fault
  | nonDronable =>
    unfold Problem.suits at suits
    unfold faulty Problem.refuses at fault
    cases present : problem.customers[id]? with
    | none => simp [present] at fault
    | some customer => cases drone : taker.isDrone <;> simp_all
  | _ => cases fault

theorem countP_faulty_le (kind : Kind) (giver : Vehicle) {taker : Vehicle} {ids : List Nat}
    (suits : ∀ id ∈ ids, problem.suits taker id = true) :
    ids.countP (faulty problem kind taker) ≤ ids.countP (faulty problem kind giver) :=
  List.countP_mono_left fun id member => faulty_of_suits (suits id member)

theorem countP_take_add_drop (accepts : Nat → Bool) (ids : List Nat) (position : Nat) :
    (ids.take position).countP accepts + (ids.drop position).countP accepts =
      ids.countP accepts := by
  rw [← List.countP_append, List.take_append_drop]

theorem weigh_of_sound {vehicle : Vehicle} {route : Route} (same : route.kind = vehicle.kind)
    (someone : route.body ≠ []) :
    weigh problem kind vehicle route = route.body.countP (faulty problem kind vehicle) := by
  have sound : flawed kind vehicle route = false := by
    cases kind <;> simp [flawed, same, Route.isEmpty, someone]
  rw [weigh, sound]
  exact Nat.zero_add _

theorem countP_le_weigh (problem : Problem K) (kind : Kind) (vehicle : Vehicle) (route : Route) :
    route.body.countP (faulty problem kind vehicle) ≤ weigh problem kind vehicle route :=
  Nat.le_add_left _ _

theorem weigh_eq_of_perm {vehicle : Vehicle} {before after : Route}
    (same : after.kind = before.kind) (perm : after.body.Perm before.body) :
    weigh problem kind vehicle after = weigh problem kind vehicle before := by
  -- Neither the kind nor whether anyone is served has changed.
  have flaw : flawed kind vehicle after = flawed kind vehicle before := by
    cases kind <;> simp [flawed, same, Route.isEmpty, perm.isEmpty_eq]
  rw [weigh, weigh, flaw, perm.countP_eq]

/-! The three moves, one by one. -/

variable {plan : Plan} {offer : Offer K}

theorem Reversal.Yields.conserves {move : Reversal} (applies : move.Applies problem plan)
    (yields : move.Yields problem plan offer) :
    plan.Conserves problem offer.candidate.plan := by
  obtain ⟨before, after, occupied, turns, candidate, -⟩ := yields
  obtain ⟨inFleet, starts, ordered, route, present, ends⟩ := applies
  cases occupied.symm.trans present
  have perm := turns.body_perm starts ordered ends
  rw [candidate]
  refine Plan.conserves_replace (by simp) (by simp [inFleet, present]) ?_ fun kind => ?_
  · simp [Plan.installed, Plan.displaced, Route.served, present, perm]
  · simp [Plan.installed, Plan.displaced, present, weigh_eq_of_perm turns.1 perm]

theorem TailExchange.Yields.conserves {move : TailExchange} (applies : move.Applies problem plan)
    (yields : move.Yields problem plan offer) :
    plan.Conserves problem offer.candidate.plan := by
  have apart := applies.apart
  obtain ⟨a, b, left, right, holdsLeft, holdsRight, kindLeft, bodyLeft, kindRight, bodyRight,
    candidate, -⟩ := yields
  obtain ⟨ownsLeft, ownsRight, -, _, _, presentLeft, presentRight, inLeft, inRight,
    suitsLeft, suitsRight⟩ := applies
  cases holdsLeft.symm.trans presentLeft
  cases holdsRight.symm.trans presentRight
  rw [candidate]
  refine Plan.conserves_replace (by simpa using apart)
    (by simp [ownsLeft, ownsRight, holdsLeft, holdsRight]) ?_ fun kind => ?_
  · have whole : (move.leftBody a b : Multiset Nat) + move.rightBody a b = a.body + b.body := by
      rw [TailExchange.leftBody, TailExchange.rightBody, ← Multiset.coe_add, ← Multiset.coe_add,
        add_comm (b.body.take _ : Multiset Nat), add_add_add_comm,
        add_comm (b.body.drop _ : Multiset Nat), Multiset.coe_add, Multiset.coe_add,
        List.take_append_drop, List.take_append_drop]
    simpa [Plan.installed, Plan.displaced, Route.served, holdsLeft, holdsRight, bodyLeft,
      bodyRight] using whole
  · have someLeft : left.body ≠ [] :=
      bodyLeft ▸ TailExchange.joined_ne_nil inLeft.1 inLeft.2.le
    have someRight : right.body ≠ [] :=
      bodyRight ▸ TailExchange.joined_ne_nil inRight.1 inRight.2.le
    -- Each tail moves to a vehicle that may serve it, and the heads stay.
    have movesLeft := countP_faulty_le kind move.right.vehicle
      fun id member => suitsLeft id (List.mem_append_right _ member)
    have movesRight := countP_faulty_le kind move.left.vehicle
      fun id member => suitsRight id (List.mem_append_right _ member)
    have wholeLeft := countP_take_add_drop (faulty problem kind move.left.vehicle) a.body
      move.leftSplit
    have wholeRight := countP_take_add_drop (faulty problem kind move.right.vehicle) b.body
      move.rightSplit
    have boundLeft := countP_le_weigh problem kind move.left.vehicle a
    have boundRight := countP_le_weigh problem kind move.right.vehicle b
    simp only [Plan.installed, Plan.displaced, List.map_cons, List.map_nil, List.sum_cons,
      List.sum_nil, holdsLeft, holdsRight, Option.elim_some, weigh_of_sound kindLeft someLeft,
      weigh_of_sound kindRight someRight, bodyLeft, bodyRight, TailExchange.leftBody,
      TailExchange.rightBody, List.countP_append]
    omega

theorem Chain.Leaves.bodies {chain : Chain} {giver : Route} {left : Option Route}
    (leaves : chain.Leaves giver left) (inside : chain.given < giver.size) :
    left.elim 0 (Route.served chain.giver.vehicle) = chain.giverBody giver := by
  unfold Chain.Leaves at leaves
  split at leaves
  -- The only customer of a route that is dropped goes away like any other.
  next last =>
    have empty : (chain.giverBody giver).length = 0 := by
      rw [Chain.giverBody, List.length_eraseIdx_of_lt inside, ← Route.size, last]
    rw [leaves, List.length_eq_zero_iff.1 empty]
    rfl
  next =>
    obtain ⟨rest, rfl, -, body⟩ := leaves
    rw [Option.elim_some, Route.served, body]

theorem Chain.Leaves.weighs (problem : Problem K) (kind : Kind) {chain : Chain} {giver : Route}
    {left : Option Route}
    (leaves : chain.Leaves giver left) (inside : chain.given < giver.size) :
    left.elim 0 (weigh problem kind chain.giver.vehicle) ≤
      (chain.giverBody giver).countP (faulty problem kind chain.giver.vehicle) := by
  unfold Chain.Leaves at leaves
  split at leaves
  next last =>
    rw [leaves]
    exact Nat.zero_le _
  next more =>
    obtain ⟨rest, rfl, same, body⟩ := leaves
    have someone : rest.body ≠ [] := by
      apply List.ne_nil_of_length_pos
      rw [body, Chain.giverBody, List.length_eraseIdx_of_lt inside, ← Route.size]
      omega
    rw [Option.elim_some, weigh_of_sound same someone, body]

theorem eraseIdx_perm {ids : List Nat} {position id : Nat} (present : ids[position]? = some id) :
    (id :: ids.eraseIdx position).Perm ids := by
  obtain ⟨inside, rfl⟩ := List.getElem?_eq_some_iff.1 present
  exact List.getElem_cons_eraseIdx_perm inside

theorem Chain.Yields.conserves {chain : Chain} (applies : chain.Applies problem plan)
    (yields : chain.Yields problem plan offer) :
    plan.Conserves problem offer.candidate.plan := by
  obtain ⟨a, b, c, x, y, left, relay, taker, holdsGiver, holdsRelay, holdsTaker, gives, passes,
    leaves, kindRelay, bodyRelay, kindTaker, bodyTaker, candidate, -⟩ := yields
  obtain ⟨⟨ownsGiver, ownsRelay, ownsTaker⟩, ⟨giverRelay, relayTaker, takerGiver⟩, _, _, _,
    presentGiver, presentRelay, presentTaker, ⟨_, given, suitsGiven⟩, ⟨_, passed, suitsPassed⟩,
    arrives, lands⟩ := applies
  cases holdsGiver.symm.trans presentGiver
  cases holdsRelay.symm.trans presentRelay
  cases holdsTaker.symm.trans presentTaker
  cases gives.symm.trans given
  cases passes.symm.trans passed
  have inGiver := (List.getElem?_eq_some_iff.1 gives).1
  have room := Chain.room_of_arrives passes arrives
  have permRelay : relay.body.Perm (x :: b.body.eraseIdx chain.passed) :=
    bodyRelay ▸ List.perm_insertIdx x _ room
  have permTaker : taker.body.Perm (y :: c.body) := bodyTaker ▸ List.perm_insertIdx y _ lands
  have someRelay : relay.body ≠ [] := bodyRelay ▸ Chain.insertIdx_ne_nil room x
  have someTaker : taker.body ≠ [] := bodyTaker ▸ Chain.insertIdx_ne_nil lands y
  have oldGiver : (x :: chain.giverBody a).Perm a.body := eraseIdx_perm gives
  have oldRelay := eraseIdx_perm passes
  rw [candidate]
  refine Plan.conserves_replace (by simp [giverRelay.symm, relayTaker, takerGiver])
    (by simp [ownsGiver, ownsRelay, ownsTaker, holdsGiver, holdsRelay, holdsTaker]) ?_
    fun kind => ?_
  -- Every customer is counted, wherever it went.
  · apply Multiset.ext.2
    intro id
    have inRelay := permRelay.count_eq id
    have inTaker := permTaker.count_eq id
    have fromGiver := oldGiver.count_eq id
    have fromRelay := oldRelay.count_eq id
    simp only [Plan.installed, Plan.displaced, List.map_cons, List.map_nil, List.sum_cons,
      List.sum_nil, holdsGiver, holdsRelay, holdsTaker, Option.elim_some, leaves.bodies inGiver,
      Route.served, Multiset.count_add, Multiset.coe_count, Multiset.count_zero,
      List.count_cons] at *
    omega
  · have movesGiven : [x].countP (faulty problem kind chain.relay.vehicle) ≤
        [x].countP (faulty problem kind chain.giver.vehicle) :=
      countP_faulty_le kind _ (by simpa using suitsGiven)
    have movesPassed : [y].countP (faulty problem kind chain.taker.vehicle) ≤
        [y].countP (faulty problem kind chain.relay.vehicle) :=
      countP_faulty_le kind _ (by simpa using suitsPassed)
    have inRelay := permRelay.countP_eq (faulty problem kind chain.relay.vehicle)
    have inTaker := permTaker.countP_eq (faulty problem kind chain.taker.vehicle)
    have fromGiver := oldGiver.countP_eq (faulty problem kind chain.giver.vehicle)
    have fromRelay := oldRelay.countP_eq (faulty problem kind chain.relay.vehicle)
    have boundGiver := countP_le_weigh problem kind chain.giver.vehicle a
    have boundRelay := countP_le_weigh problem kind chain.relay.vehicle b
    have boundTaker := countP_le_weigh problem kind chain.taker.vehicle c
    have remains := leaves.weighs problem kind inGiver
    simp only [Plan.installed, Plan.displaced, List.map_cons, List.map_nil, List.sum_cons,
      List.sum_nil, holdsGiver, holdsRelay, holdsTaker, Option.elim_some,
      weigh_of_sound kindRelay someRelay, weigh_of_sound kindTaker someTaker, List.countP_cons,
      List.countP_nil] at *
    omega

/-! All offers, and all that is chosen from them. -/

def Offered (problem : Problem K) (solution : Solution K) (offer : Offer K) : Prop :=
  offer ∈ (TwoOpt.reversals problem solution).items ∨
    offer ∈ (TwoOpt.tailExchanges problem solution).items ∨
    offer ∈ (EjectionChain.relocations problem solution).items

variable {solution : Solution K}

theorem Offered.conserves (offered : Offered problem solution offer) :
    solution.plan.Conserves problem offer.candidate.plan ∧
      offer.candidate.cost = problem.price offer.candidate.plan := by
  rcases offered with reversal | exchange | relocation
  · obtain ⟨move, member, yields⟩ := (Reversal.lists_all problem solution).exists_of_mem reversal
    have conserves := yields.conserves (Reversal.mem_all.1 member)
    obtain ⟨_, _, _, _, candidate, -⟩ := yields
    exact ⟨conserves, by rw [candidate]; rfl⟩
  · obtain ⟨move, member, yields⟩ :=
      (TailExchange.lists_all problem solution).exists_of_mem exchange
    have conserves := yields.conserves (TailExchange.mem_all.1 member)
    obtain ⟨_, _, _, _, _, _, _, _, _, _, candidate, -⟩ := yields
    exact ⟨conserves, by rw [candidate]; rfl⟩
  · obtain ⟨chain, member, yields⟩ := (Chain.lists_all problem solution).exists_of_mem relocation
    have conserves := yields.conserves (Chain.applies_of_mem_all member)
    obtain ⟨_, _, _, _, _, _, _, _, _, _, _, _, _, _, _, _, _, _, candidate, -⟩ := yields
    exact ⟨conserves, by rw [candidate]; rfl⟩

namespace Plan.Conserves

variable {before after : Solution K}

theorem tally_le (conserves : before.plan.Conserves problem after.plan) (kind : Kind) :
    tally (problem.violations after) kind ≤ tally (problem.violations before) kind :=
  tally_le_of_visits conserves.trucks conserves.drones conserves.visits (conserves.lighter kind)

theorem tally_eq (conserves : before.plan.Conserves problem after.plan)
    (decided : ∀ vehicle route, flawed kind vehicle route = false)
    (blind : ∀ vehicle other, faulty problem kind vehicle = faulty problem kind other) :
    tally (problem.violations after) kind = tally (problem.violations before) kind := by
  have light : ∀ plan : Plan, plan.load problem.fleet (weigh problem kind) =
      (Violation.visits problem plan).countP (faulty problem kind (.truck 0)) := fun _ =>
    load_weigh_of_visits decided fun vehicle => blind vehicle (.truck 0)
  -- What is decided by the visits is as much before as it is after.
  refine Nat.le_antisymm (conserves.tally_le kind) ?_
  refine tally_le_of_visits conserves.trucks.symm conserves.drones.symm conserves.visits.symm ?_
  rw [light, light, conserves.visits.countP_eq]

theorem violations_eq_nil (conserves : before.plan.Conserves problem after.plan)
    (feasible : problem.violations before = []) : problem.violations after = [] := by
  refine eq_nil_of_tally fun kind => Nat.le_zero.1 ?_
  have fewer := conserves.tally_le kind
  rwa [feasible] at fewer

end Plan.Conserves

/-- One move of a search: what one of the explorations, either operator or the two-opt operator
with its recency list makes of a solution, the aspiration being whatever it is. -/
inductive MovesTo [Scalar K] (problem : Problem K) (solution next : Solution K) : Prop where
  | explored {sweep : Sweep (Offer K)} {aspiration : Aspiration K} {firstCall : Nat}
      {outcome : Exploration K}
      (operator : sweep ∈ [TwoOpt.reversals problem solution, TwoOpt.tailExchanges problem solution,
        EjectionChain.relocations problem solution])
      (explored : sweep.explore aspiration firstCall = .ok outcome)
      (chosen : outcome.solution = some next)
  | best {neighborhood : Neighborhood K} {aspiration : Aspiration K} {outcome : Exploration K}
      (operator : neighborhood ∈ [TwoOpt.neighborhood, EjectionChain.neighborhood])
      (best : neighborhood.best problem solution aspiration = .ok outcome)
      (chosen : outcome.solution = some next)
  | advanced {recent left : RecencyList} {aspiration : Aspiration K}
      (advanced : TwoOpt.advance problem recent solution aspiration = (.ok (some next), left))

variable [Scalar K] {next : Solution K}

theorem exists_offered_of_best {neighborhood : Neighborhood K} {aspiration : Aspiration K}
    {outcome : Exploration K}
    (operator : neighborhood ∈ [TwoOpt.neighborhood, EjectionChain.neighborhood])
    (best : neighborhood.best problem solution aspiration = .ok outcome)
    (chosen : outcome.solution = some next) :
    ∃ offer, Offered problem solution offer ∧ offer.candidate = next := by
  obtain ⟨offer, member, same⟩ := Neighborhood.exists_of_best best chosen
  refine ⟨offer, ?_, same⟩
  rcases List.mem_pair.1 operator with rfl | rfl
  · rcases member with within | between
    · exact .inl within
    · exact .inr (.inl between)
  · rcases member with within | between
    · cases within
    · exact .inr (.inr between)

theorem MovesTo.exists_offered (moves : MovesTo problem solution next) :
    ∃ offer, Offered problem solution offer ∧ offer.candidate = next := by
  cases moves with
  | explored operator explored chosen =>
    obtain ⟨offer, member, same⟩ := Sweep.exists_of_explore explored chosen
    refine ⟨offer, ?_, same⟩
    simp only [List.mem_cons, List.not_mem_nil, or_false] at operator
    rcases operator with rfl | rfl | rfl
    · exact .inl member
    · exact .inr (.inl member)
    · exact .inr (.inr member)
  | best operator best chosen => exact exists_offered_of_best operator best chosen
  -- A faulty sweep leaves no solution to move to.
  | advanced advanced =>
    unfold TwoOpt.advance at advanced
    split at advanced
    · cases advanced
    next outcome best =>
      have chosen := Except.ok.inj (congrArg Prod.fst advanced)
      exact exists_offered_of_best (List.mem_cons_self ..) best chosen

theorem MovesTo.feasible (moves : MovesTo problem solution next)
    (feasible : problem.violations solution = []) : problem.violations next = [] := by
  obtain ⟨offer, offered, rfl⟩ := moves.exists_offered
  exact offered.conserves.1.violations_eq_nil feasible

/-- An offer has as many defects of the lists and of the visits as the solution that it was made
from, no more of the other kinds, and the price of its own plan. So whatever is chosen, a run that
starts at a feasible solution meets no other. -/
theorem moves_conserve (problem : Problem K) :
    (∀ (solution : Solution K) (offer : Offer K), Offered problem solution offer →
      (∀ kind ∈ [Kind.fleetMismatch, .missingCustomer, .duplicateCustomer, .unknownCustomer],
        tally (problem.violations offer.candidate) kind =
          tally (problem.violations solution) kind) ∧
      (∀ kind ∈ [Kind.emptyRoute, .kindMismatch, .nonDronable],
        tally (problem.violations offer.candidate) kind ≤
          tally (problem.violations solution) kind) ∧
      offer.candidate.cost = problem.price offer.candidate.plan) ∧
    ∀ start final : Solution K, problem.violations start = [] →
      Relation.ReflTransGen (MovesTo problem) start final → problem.violations final = [] := by
  constructor
  · intro solution offer offered
    obtain ⟨conserves, price⟩ := offered.conserves
    refine ⟨?_, fun kind _ => conserves.tally_le kind, price⟩
    intro kind decided
    simp only [List.mem_cons, List.not_mem_nil, or_false] at decided
    rcases decided with rfl | rfl | rfl | rfl <;>
      exact conserves.tally_eq (fun _ _ => rfl) fun _ _ => rfl
  -- Induction on the run; each move takes a feasible solution to a feasible one.
  · intro start final feasible run
    induction run with
    | refl => exact feasible
    | tail _ moves ih => exact moves.feasible ih

theorem moves_conserve_reversed_pair :
    let problem : Problem Binary64 :=
      ⟨[.depot 0 0, ⟨1, 0, 1, false⟩, ⟨2, 1, 0, true⟩], 1, 0, 0, fun _ => 0⟩
    let start := problem.assess ⟨[[.truck [1, 2]]], []⟩
    let final := problem.assess ⟨[[.truck [2, 1]]], []⟩
    Offered problem start ⟨final, .between 0 2⟩ ∧
      tally (problem.violations final) .missingCustomer =
        tally (problem.violations start) .missingCustomer ∧
      problem.violations start = [] ∧ Relation.ReflTransGen (MovesTo problem) start final ∧
      problem.violations final = [] := by
  intro problem start final
  have offered : Offered problem start ⟨final, .between 0 2⟩ := .inl (List.mem_cons_self ..)
  have feasible : problem.violations start = [] := by decide
  have explored : (TwoOpt.reversals problem start).explore (fun _ _ => true) 0 =
      .ok ⟨some final, .between 0 2⟩ := rfl
  have run : Relation.ReflTransGen (MovesTo problem) start final :=
    .single (.explored (List.mem_cons_self ..) explored rfl)
  exact ⟨offered, ((moves_conserve problem).1 start _ offered).1 _ (by decide), feasible, run,
    (moves_conserve problem).2 start final feasible run⟩

end TruckDrone
