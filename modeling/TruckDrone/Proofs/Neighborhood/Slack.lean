import TruckDrone.Proofs.Neighborhood.Cheapest

/-! The choice between two explorations in which nothing aspires, costs read without rounding. Each
scan may be off by one tolerance and so may the choice, but only what is found within a route pays
for both. -/

set_option autoImplicit false

namespace TruckDrone

namespace Exploration

/-- Which of two outcomes is the answer, and how far from the cheapest offer it can be. -/
inductive Prevails (within between : List (Offer EReal)) (first second : Exploration EReal) :
    Option (Solution EReal) → Prop where
  | within {chosen : Solution EReal} (found : first.solution = some chosen)
      (withstands : ∀ other, second.solution = some other →
        Scalar.undercuts other.cost chosen.cost = false)
      (near : ∀ offer ∈ within, chosen.cost ≤ offer.candidate.cost + Scalar.tolerance)
      (far : ∀ offer ∈ between, chosen.cost ≤ offer.candidate.cost + 2 * Scalar.tolerance) :
      Prevails within between first second (some chosen)
  | between {chosen : Solution EReal} (found : second.solution = some chosen)
      (undercuts : ∀ other, first.solution = some other →
        Scalar.undercuts chosen.cost other.cost = true)
      (below : ∀ offer ∈ within, chosen.cost < offer.candidate.cost)
      (near : ∀ offer ∈ between, chosen.cost ≤ offer.candidate.cost + Scalar.tolerance) :
      Prevails within between first second (some chosen)
  | nothing (noneWithin : within = []) (noneBetween : between = []) :
      Prevails within between first second none

variable {within between : List (Offer EReal)} {first second : Exploration EReal}

theorem Cheapest.prevails (cheapestWithin : first.Cheapest within)
    (cheapestBetween : second.Cheapest between) :
    Prevails within between first second (cheaper first second).solution := by
  obtain ⟨found, edge⟩ := first
  obtain ⟨foundBetween, edgeBetween⟩ := second
  cases found with
  | none =>
    obtain rfl := cheapestWithin.absent_iff.1 rfl
    cases foundBetween with
    | none => exact .nothing rfl (cheapestBetween.absent_iff.1 rfl)
    | some b => exact .between rfl nofun (List.forall_mem_nil _) (cheapestBetween.near b rfl)
  | some a =>
    have nearWithin := cheapestWithin.near a rfl
    cases foundBetween with
    | none =>
      obtain rfl := cheapestBetween.absent_iff.1 rfl
      exact .within rfl nofun nearWithin (List.forall_mem_nil _)
    | some b =>
      have nearBetween := cheapestBetween.near b rfl
      cases lower : Scalar.undercuts b.cost a.cost with
      | false =>
        simp only [cheaper, lower]
        refine .within rfl (by rintro _ ⟨⟩; exact lower) nearWithin fun offer member => ?_
        calc a.cost ≤ b.cost + Scalar.tolerance := Exact.undercuts_eq_false_iff.1 lower
          _ ≤ offer.candidate.cost + Scalar.tolerance + Scalar.tolerance :=
            add_le_add_left (nearBetween offer member) _
          _ = offer.candidate.cost + 2 * Scalar.tolerance := by
            rw [Exact.two_mul_tolerance, add_assoc]
      | true =>
        simp only [cheaper, lower]
        refine .between rfl (by rintro _ ⟨⟩; exact lower) (fun offer member => ?_) nearBetween
        -- No offer within a route undercuts the one kept there, which gives way all the same.
        exact Exact.lt_of_undercuts_of_not lower
          (Exact.undercuts_eq_false_iff.2 (nearWithin offer member))

theorem Prevails.eq_none_iff {answer : Option (Solution EReal)}
    (prevails : Prevails within between first second answer)
    (cheapestWithin : first.Cheapest within) (cheapestBetween : second.Cheapest between) :
    answer = none ↔ within = [] ∧ between = [] := by
  cases prevails with
  | within found =>
    have someone := mt cheapestWithin.absent_iff.2 (by simp [found])
    exact iff_of_false nofun fun nothing => someone nothing.1
  | between found =>
    have someone := mt cheapestBetween.absent_iff.2 (by simp [found])
    exact iff_of_false nofun fun nothing => someone nothing.2
  | nothing noneWithin noneBetween => exact iff_of_true rfl ⟨noneWithin, noneBetween⟩

theorem Prevails.le {chosen : Solution EReal}
    (prevails : Prevails within between first second (some chosen)) :
    ∀ offer ∈ within ++ between,
      chosen.cost ≤ offer.candidate.cost + 2 * Scalar.tolerance := by
  have once {cost : EReal} : cost + Scalar.tolerance ≤ cost + 2 * Scalar.tolerance := by
    rw [Exact.two_mul_tolerance, ← add_assoc]
    exact le_add_of_nonneg_right Exact.tolerance_nonneg
  cases prevails with
  | within _ _ near far =>
    exact List.forall_mem_append.2 ⟨fun offer member => (near offer member).trans once, far⟩
  | between _ _ below near =>
    refine List.forall_mem_append.2 ⟨fun offer member => ?_, fun offer member =>
      (near offer member).trans once⟩
    exact (below offer member).le.trans
      ((le_add_of_nonneg_right Exact.tolerance_nonneg).trans once)

end Exploration

/-- Where nothing aspires, the operator has an answer just if there is an offer, within a route or
between routes, and no offer is cheaper by more than two tolerances. It fails only as the
enumeration did. -/
theorem TwoOpt.advance_prevails (problem : Problem EReal) (solution : Solution EReal)
    (recent : RecencyList) :
    let within := reversals problem solution
    let between := tailExchanges problem solution
    let answer := (advance problem recent solution .never).1
    within.fault = none ∧ (problem.Knows solution.plan → between.fault = none) ∧
      match between.fault with
      | some fault => answer = .error fault
      | none => ∃ first second result, within.explore .never 0 = .ok first ∧
          between.explore .never within.items.length = .ok second ∧ answer = .ok result ∧
          Exploration.Prevails within.items between.items first second result ∧
          (result = none ↔ within.items = [] ∧ between.items = []) ∧
          ∀ chosen, result = some chosen → ∀ offer ∈ within.items ++ between.items,
            chosen.cost ≤ offer.candidate.cost + 2 * Scalar.tolerance := by
  intro within between answer
  have cleanWithin : within.fault = none := (Reversal.lists_all problem solution).clean trivial
  refine ⟨cleanWithin, (TailExchange.lists_all problem solution).clean, ?_⟩
  obtain ⟨first, exploredWithin, cheapestWithin⟩ := Sweep.explore_cheapest cleanWithin 0
  have best : neighborhood.best problem solution .never = (do
      return .cheaper first (← between.explore .never within.items.length)) := by
    show (within.explore .never 0 >>= _) = _
    rw [exploredWithin]
    rfl
  cases cut : between.fault with
  | some fault =>
    simp only [answer, advance, best, Sweep.explore_of_cut cut]
    rfl
  | none =>
    obtain ⟨second, exploredBetween, cheapestBetween⟩ :=
      Sweep.explore_cheapest cut within.items.length
    have prevails := cheapestWithin.prevails cheapestBetween
    have answered : answer = .ok (Exploration.cheaper first second).solution := by
      simp only [answer, advance, best, exploredBetween]
      rfl
    exact ⟨first, second, _, exploredWithin, exploredBetween, answered, prevails,
      prevails.eq_none_iff cheapestWithin cheapestBetween, fun chosen same => (same ▸ prevails).le⟩

/-- The second exchange is cheaper than the first by one tolerance, the first than any reversal by
another. The reversal that is chosen is as far off as it can be. -/
theorem TwoOpt.advance_prevails_two_near_ties :
    let price (plan : Plan) : EReal :=
      if plan.trucks.head? = some [.truck [1, 5]] then 0
      else if plan.trucks.head? = some [.truck [1, 4, 5]] then Scalar.tolerance
      else 2 * Scalar.tolerance
    let problem : Problem EReal :=
      ⟨[.depot 0 0, ⟨1, 0, 1, false⟩, ⟨2, 1, 0, true⟩, ⟨3, 1, 1, true⟩, ⟨4, 0, 0, true⟩,
        ⟨5, 0, 2, true⟩], 2, 0, 0, price⟩
    let solution := problem.assess ⟨[[.truck [1, 2]], [.truck [3, 4, 5]]], []⟩
    problem.Knows solution.plan ∧
      ∃ chosen, (advance problem (start problem) solution .never).1 = .ok (some chosen) ∧
        (∃ offer ∈ (reversals problem solution).items, offer.candidate = chosen) ∧
        ∃ offer ∈ (tailExchanges problem solution).items,
          chosen.cost = offer.candidate.cost + 2 * Scalar.tolerance := by
  intro price problem solution
  have known : problem.Knows solution.plan := by decide
  obtain ⟨-, clean, answered⟩ := advance_prevails problem solution (start problem)
  rw [clean known] at answered
  obtain ⟨first, second, result, exploredWithin, exploredBetween, answer, prevails, -⟩ := answered
  have dear : ∀ offer ∈ (reversals problem solution).items,
      offer.candidate.cost = 2 * Scalar.tolerance := by
    have others : ∀ offer ∈ (reversals problem solution).items,
        offer.candidate.plan.trucks.head? ≠ some [.truck [1, 5]] ∧
        offer.candidate.plan.trucks.head? ≠ some [.truck [1, 4, 5]] := by decide +kernel
    intro offer member
    rw [(Offered.conserves (.inl member)).2]
    exact (if_neg (others offer member).1).trans (if_neg (others offer member).2)
  obtain ⟨turned, settles⟩ := Exploration.exists_settlesOn .never 0
    (show (reversals problem solution).items ≠ [] by decide +kernel)
  have firstTurned := (Sweep.eq_scan_of_explore exploredWithin).trans settles.scan_eq
  have routes : (tailExchanges problem solution).items.map
      (fun offer => offer.candidate.plan.trucks.head?) =
        [some [.truck [1, 4, 5]], some [.truck [1, 5]]] := by decide +kernel
  obtain ⟨cheap, others, items, cheapRoute, routes⟩ := List.map_eq_cons_iff.1 routes
  obtain ⟨cheapest, none, rfl, cheapestRoute, routes⟩ := List.map_eq_cons_iff.1 routes
  cases List.map_eq_nil_iff.1 routes
  have cost {offer : Offer EReal} (member : offer ∈ (tailExchanges problem solution).items) :
      offer.candidate.cost = price offer.candidate.plan :=
    (Offered.conserves (.inr (.inl member))).2
  have costCheap : cheap.candidate.cost = Scalar.tolerance := by
    rw [cost (by simp [items])]
    exact (if_neg (by rw [cheapRoute]; decide)).trans (if_pos cheapRoute)
  have costCheapest : cheapest.candidate.cost = 0 := by
    rw [cost (by simp [items])]
    exact if_pos cheapestRoute
  have secondCheap : second = ⟨some cheap.candidate, cheap.edge⟩ := by
    rw [Sweep.eq_scan_of_explore exploredBetween, items]
    have kept : Scalar.undercuts cheapest.candidate.cost cheap.candidate.cost = false :=
      Exact.undercuts_eq_false_iff.2 (by rw [costCheap, costCheapest, zero_add])
    exact if_neg (Bool.eq_false_iff.1 kept)
  cases prevails with
  | within found =>
    obtain ⟨offer, member, rfl⟩ := Sweep.exists_of_explore exploredWithin found
    refine ⟨known, _, answer, ⟨offer, member, rfl⟩, cheapest, by simp [items], ?_⟩
    rw [dear offer member, costCheapest, zero_add]
  | between found undercuts =>
    have withstood : Scalar.undercuts cheap.candidate.cost turned.candidate.cost = false :=
      Exact.undercuts_eq_false_iff.2
        (by rw [dear turned settles.mem, costCheap, Exact.two_mul_tolerance])
    rw [secondCheap] at found
    cases found
    rw [undercuts _ (congrArg Exploration.solution firstTurned)] at withstood
    cases withstood
  | nothing _ noneBetween => cases items.symm.trans noneBetween

end TruckDrone
