import TruckDrone.Binary64
import TruckDrone.Proofs.Neighborhood.Reversal
import TruckDrone.Proofs.Route

/-! Reversals one after the other. Brought up to their places one by one, the customers of a route
get into any order, in fewer moves than there are customers. -/

set_option autoImplicit false

namespace TruckDrone

variable {K : Type} {problem : Problem K}

theorem Sequence.reverseSegment_append {α : Type} (front segment back : List α) :
    reverseSegment (front ++ segment ++ back) front.length segment.length =
      front ++ segment.reverse ++ back := by
  simp [reverseSegment]

namespace Plan

theorem replace_occupant {plan : Plan} {slot : Slot} {route : Route}
    (occupied : plan.occupant? slot = some route) : plan.replace [(slot, some route)] = plan := by
  apply eq_of_routes (by simp) (by simp)
  intro vehicle
  rw [routes_replace_some]
  split
  next same =>
    obtain ⟨inside, rfl⟩ := List.getElem?_eq_some_iff.1 occupied
    rw [same]
    exact List.set_getElem_self inside
  next => rfl

theorem replace_replace_some (plan : Plan) (slot : Slot) (first second : Route) :
    (plan.replace [(slot, some first)]).replace [(slot, some second)] =
      plan.replace [(slot, some second)] := by
  apply eq_of_routes (by simp) (by simp)
  intro vehicle
  rw [routes_replace_some, routes_replace_some, routes_replace_some]
  split
  · exact List.set_set ..
  · rfl

end Plan

/-- So many offers within routes, each made in the solution that the one before leads to. -/
inductive Reverses (problem : Problem K) : Nat → Solution K → Solution K → Prop where
  | done {solution : Solution K} : Reverses problem 0 solution solution
  | next {count : Nat} {solution final : Solution K} {offer : Offer K}
      (offered : offer ∈ (TwoOpt.reversals problem solution).items)
      (rest : Reverses problem count offer.candidate final) :
      Reverses problem (count + 1) solution final

variable {solution : Solution K} {slot : Slot} {route : Route}

/-- Whatever segment of two or more customers is chosen, its reversal is offered. -/
theorem exists_offer_of_segment (inFleet : slot.vehicle ∈ problem.fleet)
    (occupied : solution.plan.occupant? slot = some route) {front segment back : List Nat}
    (body : route.body = front ++ segment ++ back) (several : 2 ≤ segment.length) :
    ∃ offer ∈ (TwoOpt.reversals problem solution).items, ∃ turned : Route,
      turned.kind = route.kind ∧ turned.body = front ++ segment.reverse ++ back ∧
      offer.candidate = problem.assess (solution.plan.replace [(slot, some turned)]) := by
  let move : Reversal := ⟨slot, front.length + 1, front.length + segment.length⟩
  have starts : 1 ≤ move.first := Nat.le_add_left ..
  have ordered : move.first < move.last := Nat.add_lt_add_left several _
  have ends : move.last ≤ route.size := by
    rw [Route.size, body, List.length_append, List.length_append]
    exact Nat.le_add_right ..
  have applies : move.Applies problem solution.plan :=
    ⟨inFleet, starts, ordered, route, occupied, ends⟩
  obtain ⟨offer, offered, before, after, present, turns, candidate, -⟩ :=
    (Reversal.lists_all problem solution).exists_item trivial (Reversal.mem_all.2 applies)
  cases present.symm.trans occupied
  obtain ⟨turned, reversed, same, -⟩ := Reversal.exists_turned route move starts ordered ends
  cases turns.unique same
  refine ⟨offer, offered, after, turns.1, ?_, candidate⟩
  have length : move.last - move.first + 1 = segment.length := by
    change front.length + segment.length - (front.length + 1) + 1 = segment.length
    omega
  rw [Route.body_of_reverse reversed, length, body]
  exact Sequence.reverseSegment_append ..

/-- Where a route begins as wanted, the rest of it can be put in order behind the beginning. -/
theorem exists_reverses_of_perm (inFleet : slot.vehicle ∈ problem.fleet) {goal : List Nat} :
    ∀ (front : List Nat) {rest : List Nat} {solution : Solution K} {route : Route}, goal.Perm rest →
      solution.plan.occupant? slot = some route → route.body = front ++ rest →
        ∃ count final, count ≤ rest.length - 1 ∧ Reverses problem count solution final ∧
          ∃ ordered : Route, ordered.kind = route.kind ∧ ordered.body = front ++ goal ∧
            final.plan = solution.plan.replace [(slot, some ordered)] := by
  induction goal with
  | nil =>
    intro front rest solution route perm occupied body
    obtain rfl := List.nil_perm.1 perm
    exact ⟨0, solution, Nat.le_refl _, .done, route, rfl, body,
      (Plan.replace_occupant occupied).symm⟩
  | cons customer goal ih =>
    intro front rest solution route perm occupied body
    obtain ⟨early, late, rfl⟩ := List.append_of_mem (perm.subset (List.mem_cons_self ..))
    have others : goal.Perm (early ++ late) :=
      (List.perm_cons customer).1 (perm.trans List.perm_middle)
    -- Either the customer is in its place already, or it is the last of a segment to be reversed.
    by_cases first : early = []
    · obtain ⟨count, final, few, reverses, ordered, kind, done, plan⟩ :=
        ih (front ++ [customer]) others occupied (by simpa [first] using body)
      refine ⟨count, final, ?_, reverses, ordered, kind, by simpa using done, plan⟩
      simp only [first, List.nil_append, List.length_cons] at few ⊢
      omega
    · have someone : 1 ≤ early.length := List.length_pos_iff.2 first
      have parts : route.body = front ++ (early ++ [customer]) ++ late := by simpa using body
      obtain ⟨offer, offered, turned, sameKind, turnedBody, candidate⟩ :=
        exists_offer_of_segment inFleet occupied parts (by simpa using someone)
      have holds : offer.candidate.plan.occupant? slot = some turned := by
        rw [candidate]
        exact Plan.occupant?_replace_some occupied turned
      have moved : goal.Perm (early.reverse ++ late) :=
        others.trans ((List.reverse_perm early).symm.append_right late)
      obtain ⟨count, final, few, reverses, ordered, kind, done, plan⟩ :=
        ih (front ++ [customer]) moved holds (by simpa using turnedBody)
      refine ⟨count + 1, final, ?_, .next offered reverses, ordered, kind.trans sameKind,
        by simpa using done, ?_⟩
      · simp only [List.length_append, List.length_reverse, List.length_cons] at few ⊢
        omega
      · rw [plan, candidate, Problem.assess, Plan.replace_replace_some]

/-- A route of the fleet gets into every order of its customers by reversals, one fewer than there
are customers at most. Nothing else of the plan is changed. -/
theorem TwoOpt.reversals_reach_orders (problem : Problem K) (solution : Solution K) {slot : Slot}
    {route : Route} (inFleet : slot.vehicle ∈ problem.fleet)
    (occupied : solution.plan.occupant? slot = some route) {order : List Nat}
    (perm : order.Perm route.body) :
    ∃ count final, count ≤ route.size - 1 ∧ Reverses problem count solution final ∧
      ∃ ordered : Route, ordered.kind = route.kind ∧ ordered.body = order ∧
        final.plan = solution.plan.replace [(slot, some ordered)] :=
  exists_reverses_of_perm inFleet [] perm occupied rfl

theorem TwoOpt.reversals_reach_orders_three_customers :
    let problem : Problem Binary64 :=
      ⟨[.depot 0 0, ⟨1, 0, 1, false⟩, ⟨2, 1, 0, true⟩, ⟨3, 1, 1, true⟩], 1, 1, 0, fun _ => 0⟩
    let solution := problem.assess ⟨[[.truck [1, 2, 3]]], [[.drone [2]]]⟩
    Vehicle.truck 0 ∈ problem.fleet ∧ [3, 1, 2].Perm (Route.truck [1, 2, 3]).body ∧
      ∃ count final, count ≤ 2 ∧ Reverses problem count solution final ∧
        final.plan = ⟨[[.truck [3, 1, 2]]], [[.drone [2]]]⟩ := by
  intro problem solution
  have inFleet : Vehicle.truck 0 ∈ problem.fleet := by decide
  have occupied : solution.plan.occupant? ⟨.truck 0, 0⟩ = some (.truck [1, 2, 3]) := rfl
  have perm : [3, 1, 2].Perm (Route.truck [1, 2, 3]).body := by decide
  obtain ⟨count, final, few, reverses, ordered, kind, body, plan⟩ :=
    reversals_reach_orders problem solution inFleet occupied perm
  obtain rfl : ordered = .truck [3, 1, 2] := Route.ext_iff_body.2 ⟨kind, body⟩
  exact ⟨inFleet, perm, count, final, few, reverses, plan⟩

end TruckDrone
