import TruckDrone.Binary64
import TruckDrone.Proofs.Bounds.Cost
import TruckDrone.Proofs.Bounds.Neighborhoods
import TruckDrone.Proofs.Bounds.Violations
import TruckDrone.Proofs.Search.Neighbors

/-! Which steps of a search can be refused. Pricing, judging and turning segments never are; the
other moves are refused only for an id that the customer table does not know. -/

set_option autoImplicit false

namespace TruckDrone

variable {K : Type} [Scalar K] {problem : Problem K} {solution : Solution K}

theorem Neighborhood.best_eq_ok (neighborhood : Neighborhood K)
    (within : (neighborhood.withinRoute problem solution).fault = none)
    (between : (neighborhood.betweenRoutes problem solution).fault = none)
    (aspiration : Aspiration K) :
    ∃ outcome, neighborhood.best problem solution aspiration = .ok outcome := by
  rw [best, Sweep.explore_of_clean within, Fault.ok_bind, Sweep.explore_of_clean between]
  exact ⟨_, rfl⟩

theorem TwoOpt.advance_eq_ok (known : problem.Knows solution.plan) (recent : RecencyList)
    (aspiration : Aspiration K) :
    ∃ answer, (advance problem recent solution aspiration).1 = .ok answer := by
  obtain ⟨outcome, found⟩ := Neighborhood.best_eq_ok neighborhood
    ((Reversal.lists_all problem solution).clean trivial)
    ((TailExchange.lists_all problem solution).clean known) aspiration
  rw [advance, found]
  exact ⟨_, rfl⟩

/-- Every leg, visit, slice and difference of the pricing and of the judgement of any plan lies
within what it is taken from, and so does every position that a reversal needs. Where the customer
table knows all ids that are visited this holds of the other moves, whatever else is wrong with the
plan: both operators answer, and the moves of a search can be listed. -/
theorem Instance.positions_inside (inst : Instance K) (solution : Solution K) :
    let problem := inst.toProblem
    inst.costByPosition solution.plan = .ok (inst.cost solution.plan) ∧
    Violation.violationsByTable problem solution = .ok (problem.violations solution) ∧
    (∀ route : Route, route.inner = .ok route.body ∧ route.innerSize = .ok route.size) ∧
    (TwoOpt.reversalsByPosition problem solution = TwoOpt.reversals problem solution ∧
      ∀ aspiration firstCall, ∃ outcome,
        (TwoOpt.reversalsByPosition problem solution).explore aspiration firstCall = .ok outcome) ∧
    TwoOpt.tailExchangesByPosition problem solution = TwoOpt.tailExchanges problem solution ∧
    EjectionChain.relocationsByPosition problem solution =
      EjectionChain.relocations problem solution ∧
    (problem.Knows solution.plan →
      (∀ aspiration firstCall, ∃ outcome,
        (TwoOpt.tailExchangesByPosition problem solution).explore aspiration firstCall =
          .ok outcome) ∧
      (∀ aspiration firstCall, ∃ outcome,
        (EjectionChain.relocationsByPosition problem solution).explore aspiration firstCall =
          .ok outcome) ∧
      (∀ recent aspiration, ∃ answer,
        (TwoOpt.advance problem recent solution aspiration).1 = .ok answer) ∧
      (∀ aspiration, ∃ outcome,
        EjectionChain.neighborhood.best problem solution aspiration = .ok outcome) ∧
      ∃ moves, Move.neighbors problem solution = .ok moves) := by
  intro problem
  have reversals := TwoOpt.reversalsByPosition_eq problem solution
  have exchanges := TwoOpt.tailExchangesByPosition_eq problem solution
  have relocations := EjectionChain.relocationsByPosition_eq problem solution
  refine ⟨inst.costByPosition_eq_ok _, Violation.violationsByTable_eq_ok problem solution,
    fun route => ⟨route.inner_eq_ok, route.innerSize_eq_ok⟩, ⟨reversals, ?_⟩, exchanges,
    relocations, fun known => ⟨?_, ?_, ?_, ?_, Move.neighbors_eq_ok known⟩⟩
  · intro aspiration firstCall
    rw [reversals]
    exact ⟨_, Sweep.explore_of_clean ((Reversal.lists_all problem solution).clean trivial) ..⟩
  · intro aspiration firstCall
    rw [exchanges]
    exact ⟨_, Sweep.explore_of_clean ((TailExchange.lists_all problem solution).clean known) ..⟩
  · intro aspiration firstCall
    rw [relocations]
    exact ⟨_, Sweep.explore_of_clean ((Chain.lists_all problem solution).clean known) ..⟩
  · exact TwoOpt.advance_eq_ok known
  · exact Neighborhood.best_eq_ok EjectionChain.neighborhood rfl
      ((Chain.lists_all problem solution).clean known)

/-- A list too many, an empty route, a repeated customer and routes of the wrong kind. -/
theorem Instance.positions_inside_malformed :
    ∃ inst : Instance Binary64,
      ofCustomers? [.depot 0 0, ⟨1, 0, 1, false⟩, ⟨2, 1, 0, true⟩] 1 1 = some inst ∧
      let problem := inst.toProblem
      let solution := problem.assess
        ⟨[[.drone [1, 1], .truck []], [.truck [2]]], [[.truck [2]]]⟩
      problem.Knows solution.plan ∧ problem.violations solution ≠ [] ∧
        Violation.violationsByTable problem solution = .ok (problem.violations solution) ∧
        ∃ moves, Move.neighbors problem solution = .ok moves := by
  refine ⟨_, rfl, ?_⟩
  intro problem solution
  have known : problem.Knows solution.plan := by decide
  obtain ⟨-, table, -, -, -, -, safe⟩ := positions_inside _ solution
  exact ⟨known, by decide, table, (safe known).2.2.2.2⟩

end TruckDrone
