import Mathlib.Data.Nat.Choose.Basic
import TruckDrone.Neighborhood.TwoOpt
import TruckDrone.Proofs.Neighborhood.Exploration
import TruckDrone.Proofs.Neighborhood.Order
import TruckDrone.Proofs.Route
import TruckDrone.Violation

/-! Segment reversals, one by one: which there are, in which order they are offered, and what
each of them changes. -/

set_option autoImplicit false

namespace TruckDrone

open Sequence Sweep

variable {K : Type}

/-- A reversal of customers `first` to `last`, counted from 1, of the route in a slot. -/
structure Reversal where
  slot : Slot
  first : Nat
  last : Nat
  deriving DecidableEq, Repr

namespace Reversal

/-- Vehicle, route, first and last customer: the order of enumeration is that of the ranks. -/
def rank (trucks : Nat) (move : Reversal) : List Nat :=
  [move.slot.vehicle.unified trucks, move.slot.position, move.first, move.last]

def Applies (problem : Problem K) (plan : Plan) (move : Reversal) : Prop :=
  move.slot.vehicle ∈ problem.fleet ∧ 1 ≤ move.first ∧ move.first < move.last ∧
    ∃ route, plan.occupant? move.slot = some route ∧ move.last ≤ route.size

def Turns (move : Reversal) (before after : Route) : Prop :=
  after.kind = before.kind ∧ ∀ position, after.stops[position]? =
    before.stops[if move.first ≤ position ∧ position ≤ move.last then
      move.first + move.last - position else position]?

/-- The candidate has the turned route in the slot and is as before elsewhere. The edge joins
the stop before the first customer to the last customer. -/
def Yields (problem : Problem K) (plan : Plan) (move : Reversal) (offer : Offer K) : Prop :=
  ∃ before after, plan.occupant? move.slot = some before ∧ move.Turns before after ∧
    offer.candidate = problem.assess (plan.replace [(move.slot, some after)]) ∧
    ∃ start finish, before.stops[move.first - 1]? = some start ∧
      before.stops[move.last]? = some finish ∧ offer.edge = .between start finish

def ofRoute (slot : Slot) (route : Route) : List Reversal :=
  (span 1 (route.size + 1)).flatMap fun first =>
    (span (first + 1) (route.size + 1)).flatMap fun last => [⟨slot, first, last⟩]

def all (problem : Problem K) (plan : Plan) : List Reversal :=
  problem.fleet.flatMap fun vehicle =>
    (plan.slots vehicle).flatMap fun (slot, route) => ofRoute slot route

/-- Reversing within the customers is never refused. -/
theorem exists_turned (route : Route) (move : Reversal) (starts : 1 ≤ move.first)
    (ordered : move.first < move.last) (ends : move.last ≤ route.size) :
    ∃ turned, route.reverse move.first (move.last - move.first + 1) = .ok turned ∧
      move.Turns route turned ∧ turned.body.Perm route.body := by
  have inside : 1 ≤ move.first ∧
      move.first + (move.last - move.first + 1) < route.stops.length := by
    rw [Route.length_stops]
    omega
  refine ⟨_, if_pos inside, ⟨rfl, fun position => ?_⟩, reverseSegment_perm ..⟩
  rw [Route.stops_of_reverse (if_pos inside), getElem?_reverseSegment (by omega)]
  -- Both sides read the same stop of the route before.
  congr 1
  split <;> split <;> omega

theorem lists_ofRoute (problem : Problem K) (solution : Solution K) {slot : Slot} {route : Route}
    (occupied : solution.plan.occupant? slot = some route) :
    Lists True (Yields problem solution.plan) (ofRoute slot route) (do
      let i ← each (span 1 (route.stops.length - 1))
      let j ← each (span (i + 1) (route.stops.length - 1))
      let reversed ← lift (route.reverse i (j - i + 1))
      let plan ← lift (solution.plan.put slot reversed)
      let before ← lift (entry route.stops (i - 1))
      let last ← lift (entry route.stops j)
      return ⟨problem.assess plan, .between before last⟩) := by
  have bound : route.stops.length - 1 = route.size + 1 := by
    rw [Route.length_stops]
    omega
  rw [bound]
  refine lists_each_bind fun first inFirst => lists_each_bind fun last inLast => ?_
  rw [mem_span] at inFirst inLast
  obtain ⟨turned, reversed, turns, -⟩ := exists_turned route ⟨slot, first, last⟩
    inFirst.1 inLast.1 (Nat.lt_succ_iff.1 inLast.2)
  have startInside : first - 1 < route.stops.length := by
    rw [Route.length_stops]
    omega
  have finishInside : last < route.stops.length := by
    rw [Route.length_stops]
    omega
  rw [reversed, lift_ok_bind, Plan.put_eq_replace occupied, lift_ok_bind, entry_eq_ok startInside,
    lift_ok_bind, entry_eq_ok finishInside, lift_ok_bind]
  exact lists_pure ⟨route, turned, occupied, turns, rfl, _, _,
    List.getElem?_eq_getElem startInside, List.getElem?_eq_getElem finishInside, rfl⟩

theorem lists_all (problem : Problem K) (solution : Solution K) :
    Lists True (Yields problem solution.plan) (all problem solution.plan)
      (TwoOpt.reversals problem solution) := by
  refine lists_each_bind fun vehicle _ => lists_each_bind fun ⟨slot, route⟩ member => ?_
  exact lists_ofRoute problem solution (Plan.mem_slots.1 member).2

/-! Which reversals there are, and their order. -/

theorem mem_ofRoute {slot : Slot} {route : Route} {move : Reversal} :
    move ∈ ofRoute slot route ↔
      move.slot = slot ∧ 1 ≤ move.first ∧ move.first < move.last ∧ move.last ≤ route.size := by
  cases move with
  | mk place first last =>
    simp only [ofRoute, List.mem_flatMap, mem_span, List.mem_singleton, mk.injEq]
    constructor
    · rintro ⟨_, starts, _, ends, rfl, rfl, rfl⟩
      exact ⟨rfl, starts.1, ends.1, Nat.lt_succ_iff.1 ends.2⟩
    · rintro ⟨rfl, starts, ordered, ends⟩
      exact ⟨first, ⟨starts, by omega⟩, last, ⟨ordered, by omega⟩, rfl, rfl, rfl⟩

theorem mem_all {problem : Problem K} {plan : Plan} {move : Reversal} :
    move ∈ all problem plan ↔ move.Applies problem plan := by
  simp only [all, List.mem_flatMap, Prod.exists, Plan.mem_slots, mem_ofRoute, Applies]
  constructor
  · rintro ⟨_, inFleet, _, route, ⟨rfl, occupied⟩, rfl, starts, ordered, ends⟩
    exact ⟨inFleet, starts, ordered, route, occupied, ends⟩
  · rintro ⟨inFleet, starts, ordered, route, occupied, ends⟩
    exact ⟨_, inFleet, move.slot, route, ⟨rfl, occupied⟩, rfl, starts, ordered, ends⟩

theorem pairwise_ofRoute (trucks : Nat) (slot : Slot) (route : Route) :
    (ofRoute slot route).Pairwise fun earlier later => earlier.rank trucks < later.rank trucks := by
  apply pairwise_flatMap_of_groups (pairwise_span _ _)
  · intro first _
    apply pairwise_flatMap_of_groups (pairwise_span _ _)
    · intro last _
      exact List.pairwise_singleton _ _
    · intro last _ later _ ordered x inLast y inLater
      rw [List.mem_singleton.1 inLast, List.mem_singleton.1 inLater]
      simp [rank, List.cons_lt_cons_iff, ordered]
  · intro first _ later _ ordered x inFirst y inLater
    obtain ⟨_, _, atFirst⟩ := List.mem_flatMap.1 inFirst
    obtain ⟨_, _, atLater⟩ := List.mem_flatMap.1 inLater
    rw [List.mem_singleton.1 atFirst, List.mem_singleton.1 atLater]
    simp [rank, List.cons_lt_cons_iff, ordered]

theorem pairwise_all (problem : Problem K) (plan : Plan) :
    (all problem plan).Pairwise fun earlier later =>
      earlier.rank problem.trucks < later.rank problem.trucks := by
  apply pairwise_flatMap_of_groups (pairwise_fleet _ _)
  · intro vehicle _
    apply pairwise_flatMap_of_groups (Plan.pairwise_slots plan vehicle)
    · intro entry _
      exact pairwise_ofRoute _ _ _
    · rintro ⟨first, _⟩ inFirst ⟨later, _⟩ inLater ordered x xFirst y yLater
      rw [rank, rank, (mem_ofRoute.1 xFirst).1, (mem_ofRoute.1 yLater).1,
        (Plan.mem_slots.1 inFirst).1, (Plan.mem_slots.1 inLater).1]
      exact List.cons_lt_cons_iff.2 (.inr ⟨rfl, List.cons_lt_cons_iff.2 (.inl ordered)⟩)
  · intro u _ v _ ordered x xFirst y yLater
    obtain ⟨⟨_, _⟩, inFirst, xFirst⟩ := List.mem_flatMap.1 xFirst
    obtain ⟨⟨_, _⟩, inLater, yLater⟩ := List.mem_flatMap.1 yLater
    rw [rank, rank, (mem_ofRoute.1 xFirst).1, (mem_ofRoute.1 yLater).1,
      (Plan.mem_slots.1 inFirst).1, (Plan.mem_slots.1 inLater).1]
    exact List.cons_lt_cons_iff.2 (.inl ordered)

theorem nodup_all (problem : Problem K) (plan : Plan) : (all problem plan).Nodup := by
  apply (pairwise_all problem plan).imp
  rintro move _ earlier rfl
  exact List.lt_irrefl _ earlier

/-! How many there are. -/

theorem sum_span_sub (start count : Nat) :
    ((List.range' start count).map fun i => start + count - 1 - i).sum =
      count * (count - 1) / 2 := by
  induction count generalizing start with
  | zero => rfl
  | succ count ih =>
    have shifted : ((List.range' (start + 1) count).map fun i => start + (count + 1) - 1 - i) =
        (List.range' (start + 1) count).map fun i => start + 1 + count - 1 - i :=
      List.map_congr_left fun i _ => by omega
    rw [List.range'_succ, List.map_cons, List.sum_cons, shifted, ih (start + 1),
      Nat.triangle_succ]
    omega

theorem length_ofRoute (slot : Slot) (route : Route) :
    (ofRoute slot route).length = route.size * (route.size - 1) / 2 := by
  have passes : ∀ first, ((span (first + 1) (route.size + 1)).flatMap fun last =>
      [(⟨slot, first, last⟩ : Reversal)]).length = 1 + route.size - 1 - first := by
    intro first
    rw [← List.map_eq_flatMap, List.length_map, span, List.length_range']
    omega
  rw [ofRoute, List.length_flatMap]
  simp only [passes]
  exact sum_span_sub 1 route.size

theorem length_all (problem : Problem K) (plan : Plan) :
    (all problem plan).length =
      ((Violation.held problem plan).map fun (_, route) =>
        route.size * (route.size - 1) / 2).sum := by
  have joined : all problem plan =
      (Violation.held problem plan).flatMap fun (slot, route) => ofRoute slot route :=
    List.flatMap_assoc.symm
  rw [joined, List.length_flatMap]
  congr 1
  exact List.map_congr_left fun (slot, route) _ => length_ofRoute slot route

/-! What a reversal leaves alone. -/

theorem Turns.unique {move : Reversal} {before first second : Route}
    (one : move.Turns before first) (other : move.Turns before second) : first = second := by
  have stops : first.stops = second.stops :=
    List.ext_getElem? fun position => (one.2 position).trans (other.2 position).symm
  have body : first.body = second.body := by simpa [Route.stops] using stops
  have kind : first.kind = second.kind := one.1.trans other.1.symm
  cases first
  cases second
  cases body
  cases kind
  rfl

theorem Turns.body_perm {move : Reversal} {before after : Route} (turns : move.Turns before after)
    (starts : 1 ≤ move.first) (ordered : move.first < move.last)
    (ends : move.last ≤ before.size) : after.body.Perm before.body := by
  obtain ⟨turned, -, same, perm⟩ := exists_turned before move starts ordered ends
  rwa [turns.unique same]

theorem flatMap_set_perm {before after : Route} (perm : after.body.Perm before.body)
    {routes : List Route} {position : Nat} (held : routes[position]? = some before) :
    ((routes.set position after).flatMap Route.body).Perm (routes.flatMap Route.body) := by
  induction routes generalizing position with
  | nil => simp at held
  | cons head tail ih =>
    cases position with
    | zero =>
      cases held
      exact perm.append_right _
    | succ position => exact (ih held).append_left _

/-- What a reversal finds in its slot and what it leaves there, all other slots staying as they
are. -/
structure Turned (plan : Plan) (move : Reversal) (offer : Offer K) (before after : Route) :
    Prop where
  starts : 1 ≤ move.first
  ordered : move.first < move.last
  ends : move.last ≤ before.size
  held : plan.occupant? move.slot = some before
  turns : move.Turns before after
  now : offer.candidate.plan.occupant? move.slot = some after
  stays : ∀ slot ≠ move.slot, offer.candidate.plan.occupant? slot = plan.occupant? slot
  edge : ∃ start finish, before.stops[move.first - 1]? = some start ∧
    before.stops[move.last]? = some finish ∧ offer.edge = .between start finish

theorem Yields.turned {problem : Problem K} {plan : Plan} {move : Reversal} {offer : Offer K}
    (applies : move.Applies problem plan) (yields : move.Yields problem plan offer) :
    ∃ before after, move.Turned plan offer before after := by
  obtain ⟨before, after, occupied, turns, candidate, edge⟩ := yields
  obtain ⟨-, starts, ordered, _, present, ends⟩ := applies
  cases occupied.symm.trans present
  have keeps : Plan.Keeps [(move.slot, some after)] := by
    simp [Plan.Keeps]
  refine ⟨before, after, starts, ordered, ends, occupied, turns, ?now, ?stays, edge⟩ <;>
    rw [candidate]
  case now => exact Plan.occupant?_replace_some occupied after
  case stays =>
    intro slot different
    exact Plan.occupant?_replace_of_not_listed keeps plan (by simpa using different)

/-- There are as many lists, and every vehicle serves whom it served on as many routes. -/
theorem Yields.keeps {problem : Problem K} {plan : Plan} {move : Reversal} {offer : Offer K}
    (applies : move.Applies problem plan) (yields : move.Yields problem plan offer) :
    offer.candidate.plan.trucks.length = plan.trucks.length ∧
      offer.candidate.plan.drones.length = plan.drones.length ∧
      ∀ vehicle, (((offer.candidate.plan.routes vehicle).flatMap Route.body).Perm
          ((plan.routes vehicle).flatMap Route.body)) ∧
        (offer.candidate.plan.routes vehicle).length = (plan.routes vehicle).length := by
  obtain ⟨before, after, occupied, turns, candidate, -⟩ := yields
  obtain ⟨-, starts, ordered, route, present, ends⟩ := applies
  cases occupied.symm.trans present
  have perm := turns.body_perm starts ordered ends
  rw [candidate]
  refine ⟨Plan.length_trucks_replace .., Plan.length_drones_replace .., fun vehicle => ?_⟩
  rw [Problem.assess, Plan.routes_replace_some]
  by_cases same : vehicle = move.slot.vehicle
  · rw [if_pos same, same, List.length_set]
    exact ⟨flatMap_set_perm perm present, rfl⟩
  · rw [if_neg same]
    exact ⟨.refl _, rfl⟩

theorem Yields.edge_ne_trivial {problem : Problem K} {plan : Plan} {move : Reversal}
    {offer : Offer K} (applies : move.Applies problem plan)
    (yields : move.Yields problem plan offer) : offer.edge ≠ .trivial := by
  obtain ⟨before, after, occupied, turns, candidate, start, finish, -, stop, edge⟩ := yields
  obtain ⟨-, starts, ordered, route, present, ends⟩ := applies
  cases occupied.symm.trans present
  have customer : finish ∈ before.body := by
    rw [Route.getElem?_stops_of_pos (starts.trans ordered.le) ends] at stop
    exact List.mem_of_getElem? stop
  -- The last customer of the segment is an end of the edge, and it is not the depot.
  have served : finish ≠ depotId := fun same => before.depotFree (same ▸ customer)
  rw [edge]
  exact fun trivial => served (Edge.between_eq_trivial.1 trivial).2

end Reversal

/-- The reversals of a plan are offered one by one in the order of their ranks, whatever the
plan looks like, and the aspiration is asked once about each. -/
theorem TwoOpt.reversals_exact [Scalar K] (problem : Problem K) (solution : Solution K) :
    ∃ moves : List Reversal,
      (moves.Pairwise fun earlier later =>
        earlier.rank problem.trucks < later.rank problem.trucks) ∧
      (∀ move, move ∈ moves ↔ move.Applies problem solution.plan) ∧
      List.Forall₂ (Reversal.Yields problem solution.plan) moves
        (reversals problem solution).items ∧
      (∀ offer ∈ (reversals problem solution).items, offer.edge ≠ .trivial ∧
        offer.candidate.plan.trucks.length = solution.plan.trucks.length ∧
        offer.candidate.plan.drones.length = solution.plan.drones.length ∧
        ∀ vehicle, (((offer.candidate.plan.routes vehicle).flatMap Route.body).Perm
            ((solution.plan.routes vehicle).flatMap Route.body)) ∧
          (offer.candidate.plan.routes vehicle).length =
            (solution.plan.routes vehicle).length) ∧
      ∀ (aspiration : Aspiration K) (firstCall : Nat),
        (reversals problem solution).explore aspiration firstCall =
          .ok (.scan aspiration firstCall (reversals problem solution).items) ∧
        (Exploration.answers aspiration firstCall (reversals problem solution).items).length =
          ((Violation.held problem solution.plan).map fun (_, route) =>
            route.size * (route.size - 1) / 2).sum := by
  have listed := Reversal.lists_all problem solution
  refine ⟨Reversal.all problem solution.plan, Reversal.pairwise_all .., fun _ => Reversal.mem_all,
    listed.all_listed trivial, fun offer member => ?_, fun aspiration firstCall => ⟨?_, ?_⟩⟩
  · obtain ⟨move, inAll, yields⟩ := listed.exists_of_mem member
    have applies := Reversal.mem_all.1 inAll
    exact ⟨yields.edge_ne_trivial applies, yields.keeps applies⟩
  · exact Sweep.explore_of_clean (listed.clean trivial) aspiration firstCall
  · rw [Exploration.length_answers, ← (listed.all_listed trivial).length_eq, Reversal.length_all]

end TruckDrone
