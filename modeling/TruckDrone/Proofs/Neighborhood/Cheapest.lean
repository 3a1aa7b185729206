import TruckDrone.Proofs.Exact
import TruckDrone.Proofs.Search.Neighbors

/-! Explorations in which nothing aspires, costs read without rounding. Undercutting by a tolerance
is no order, yet near ties do not add up: what a scan keeps is within one tolerance of every
offer. -/

set_option autoImplicit false

namespace TruckDrone

abbrev Aspiration.never {K : Type} : Aspiration K := fun _ _ => false

namespace Exploration

/-- The outcome is one of the offers, its edge included. Every earlier offer costs more, and no
later one undercuts it. There is no outcome just if there is no offer. -/
structure Cheapest (offers : List (Offer EReal)) (outcome : Exploration EReal) : Prop where
  absent_iff : outcome.solution = none ↔ offers = []
  trivial_of_absent : outcome.solution = none → outcome.edge = .trivial
  first : ∀ chosen, outcome.solution = some chosen → ∃ before after,
    offers = before ++ ⟨chosen, outcome.edge⟩ :: after ∧
      (∀ earlier ∈ before, chosen.cost < earlier.candidate.cost) ∧
      ∀ later ∈ after, Scalar.undercuts later.candidate.cost chosen.cost = false
  near : ∀ chosen, outcome.solution = some chosen → ∀ offer ∈ offers,
    chosen.cost ≤ offer.candidate.cost + Scalar.tolerance

variable {offers : List (Offer EReal)}

theorem cheapest_nothing : Cheapest [] nothing where
  absent_iff := iff_of_true rfl rfl
  trivial_of_absent _ := rfl
  first := nofun
  near := nofun

/-- An earlier offer costs more, so the bound on what comes later holds for every offer. -/
theorem cheapest_of_split {before after : List (Offer EReal)} (offer : Offer EReal)
    (earlier : ∀ other ∈ before, offer.candidate.cost < other.candidate.cost)
    (later : ∀ other ∈ after, Scalar.undercuts other.candidate.cost offer.candidate.cost = false) :
    Cheapest (before ++ offer :: after) ⟨some offer.candidate, offer.edge⟩ where
  absent_iff := by simp
  trivial_of_absent := nofun
  first := by
    rintro _ ⟨⟩
    exact ⟨before, after, rfl, earlier, later⟩
  near := by
    rintro _ ⟨⟩ other member
    rcases List.mem_append.1 member with inBefore | inRest
    · exact (earlier other inBefore).le.trans (le_add_of_nonneg_right Exact.tolerance_nonneg)
    · rcases List.mem_cons.1 inRest with rfl | inAfter
      · exact le_add_of_nonneg_right Exact.tolerance_nonneg
      · exact Exact.undercuts_eq_false_iff.1 (later other inAfter)

/-- One more offer: it is passed over, or what it undercuts gives way to it. -/
theorem Cheapest.consider {outcome : Exploration EReal} (cheapest : Cheapest offers outcome)
    (last : Offer EReal) : Cheapest (offers ++ [last]) (outcome.consider last false) := by
  obtain ⟨solution, edge⟩ := outcome
  cases solution with
  | none =>
    rw [cheapest.absent_iff.1 rfl]
    exact cheapest_of_split last (List.forall_mem_nil _) (List.forall_mem_nil _)
  | some incumbent =>
    obtain ⟨before, after, rfl, earlier, later⟩ := cheapest.first incumbent rfl
    cases lower : Scalar.undercuts last.candidate.cost incumbent.cost with
    | false =>
      have kept : Exploration.consider ⟨some incumbent, edge⟩ last false = ⟨some incumbent, edge⟩ :=
        if_neg (by simp [accepts, lower])
      rw [kept, List.append_assoc, List.cons_append]
      refine cheapest_of_split ⟨incumbent, edge⟩ earlier (List.forall_mem_append.2 ⟨later, ?_⟩)
      exact List.forall_mem_singleton.2 lower
    | true =>
      have taken : Exploration.consider ⟨some incumbent, edge⟩ last false =
          ⟨some last.candidate, last.edge⟩ := if_pos (by simp [accepts, lower])
      have below := Exact.lt_of_undercuts lower
      rw [taken]
      refine cheapest_of_split last (List.forall_mem_append.2 ⟨?_, ?_⟩) (List.forall_mem_nil _)
      · exact fun other member => below.trans (earlier other member)
      · -- An offer that the incumbent withstood by the tolerance only is still above the new one.
        exact List.forall_mem_cons.2 ⟨below, fun other member =>
          Exact.lt_of_undercuts_of_not lower (later other member)⟩

theorem scan_cheapest (firstCall : Nat) (offers : List (Offer EReal)) :
    Cheapest offers (scan .never firstCall offers) := by
  induction offers using List.reverseRecOn with
  | nil => exact cheapest_nothing
  | append_singleton offers last ih =>
    rw [scan_append_singleton]
    exact ih.consider last

end Exploration

theorem Sweep.explore_cheapest {sweep : Sweep (Offer EReal)} (clean : sweep.fault = none)
    (firstCall : Nat) : ∃ outcome, sweep.explore .never firstCall = .ok outcome ∧
      outcome.Cheapest sweep.items :=
  ⟨_, explore_of_clean clean .never firstCall, Exploration.scan_cheapest ..⟩

/-- Where nothing aspires, the reversals of any plan are explored with an outcome that no offer
undercuts, the earliest at a tie. So are the other moves, unless a vehicle is asked about an id that
is not in the table; then the exploration fails as the enumeration did. -/
theorem explorations_cheapest (problem : Problem EReal) (solution : Solution EReal) :
    (∀ firstCall, ∃ outcome,
      (TwoOpt.reversals problem solution).explore .never firstCall = .ok outcome ∧
        outcome.Cheapest (TwoOpt.reversals problem solution).items) ∧
    ∀ sweep ∈ [TwoOpt.tailExchanges problem solution, EjectionChain.relocations problem solution],
      (problem.Knows solution.plan → sweep.fault = none) ∧
      ∀ firstCall, match sweep.fault with
        | some fault => sweep.explore .never firstCall = .error fault
        | none => ∃ outcome, sweep.explore .never firstCall = .ok outcome ∧
            outcome.Cheapest sweep.items := by
  constructor
  · exact Sweep.explore_cheapest ((Reversal.lists_all problem solution).clean trivial)
  · intro sweep member
    constructor
    · intro known
      rcases List.mem_pair.1 member with rfl | rfl
      · exact (TailExchange.lists_all problem solution).clean known
      · exact (Chain.lists_all problem solution).clean known
    · intro firstCall
      cases cut : sweep.fault with
      | none => exact Sweep.explore_cheapest cut firstCall
      | some fault => exact Sweep.explore_of_cut cut ..

/-- The second exchange costs less than the first, but not by more than the tolerance. -/
theorem explorations_cheapest_near_tie :
    let price (plan : Plan) : EReal :=
      if plan.trucks.head? = some [.truck [1, 4, 5]] then Scalar.tolerance else 0
    let problem : Problem EReal :=
      ⟨[.depot 0 0, ⟨1, 0, 1, false⟩, ⟨2, 1, 0, true⟩, ⟨3, 1, 1, true⟩, ⟨4, 0, 0, true⟩,
        ⟨5, 0, 2, true⟩], 2, 0, 0, price⟩
    let solution := problem.assess ⟨[[.truck [1, 2]], [.truck [3, 4, 5]]], []⟩
    let sweep := TwoOpt.tailExchanges problem solution
    sweep ∈ [sweep, EjectionChain.relocations problem solution] ∧
      problem.Knows solution.plan ∧
      sweep.items.map (fun offer => offer.candidate.plan.trucks.head?) =
        [some [.truck [1, 4, 5]], some [.truck [1, 5]]] ∧
      ∃ outcome, sweep.explore .never 0 = .ok outcome ∧ outcome.Cheapest sweep.items := by
  intro price problem solution sweep
  have listed : sweep ∈ [sweep, EjectionChain.relocations problem solution] :=
    List.mem_cons_self ..
  have known : problem.Knows solution.plan := by decide
  obtain ⟨clean, explored⟩ := (explorations_cheapest problem solution).2 sweep listed
  have outcome := explored 0
  rw [clean known] at outcome
  exact ⟨listed, known, by decide +kernel, outcome⟩

end TruckDrone
