import TruckDrone.Proofs.Neighborhood.Conservation
import TruckDrone.Proofs.Search.Lawful
import TruckDrone.Proofs.Violation.Feasible

/-! The moves that are listed for a search. Each of them was offered, so that a search holds only
what offers lead to. From a feasible solution on they can always be listed. -/

set_option autoImplicit false

namespace TruckDrone

variable {K : Type} {problem : Problem K} {solution first final : Solution K}

/-- Any of the offers is taken, then any that it leads to, and so on. -/
abbrev Reaches (problem : Problem K) : Solution K → Solution K → Prop :=
  Relation.ReflTransGen fun solution next =>
    ∃ offer, Offered problem solution offer ∧ offer.candidate = next

namespace Move

variable {label : String} {sweep : Sweep (Offer K)}

theorem offered_of_mem_sweeps (listed : (label, sweep) ∈ sweeps problem solution) {offer : Offer K}
    (member : offer ∈ sweep.items) : Offered problem solution offer := by
  simp only [sweeps, List.mem_cons, Prod.mk.injEq, List.not_mem_nil, or_false] at listed
  rcases listed with ⟨-, rfl⟩ | ⟨-, rfl⟩ | ⟨-, rfl⟩
  · exact .inl member
  · exact .inr (.inl member)
  · exact .inr (.inr member)

theorem clean_of_mem_sweeps (known : problem.Knows solution.plan)
    (listed : (label, sweep) ∈ sweeps problem solution) : sweep.fault = none := by
  simp only [sweeps, List.mem_cons, Prod.mk.injEq, List.not_mem_nil, or_false] at listed
  rcases listed with ⟨-, rfl⟩ | ⟨-, rfl⟩ | ⟨-, rfl⟩
  · exact (Reversal.lists_all problem solution).clean trivial
  · exact (TailExchange.lists_all problem solution).clean known
  · exact (Chain.lists_all problem solution).clean known

variable [Scalar K] {moves : List (Move K)}

theorem exists_offered_of_mem_neighbors (listed : neighbors problem solution = .ok moves)
    {move : Move K} (member : move ∈ moves) :
    ∃ offer, Offered problem solution offer ∧ offer.candidate = move.solution ∧
      move.cost = move.solution.cost := by
  obtain ⟨outcomes, explored, listed⟩ := Fault.bind_eq_ok.1 listed
  cases listed
  obtain ⟨_, inOutcomes, rfl⟩ := List.mem_filterMap.1 member
  obtain ⟨⟨label, sweep⟩, inSweeps, found⟩ := Fault.exists_of_mapM explored inOutcomes
  obtain ⟨outcome, scanned, packed⟩ := Fault.bind_eq_ok.1 found
  obtain ⟨next, chosen, rfl⟩ := Option.map_eq_some_iff.1 (Except.ok.inj packed)
  obtain ⟨offer, inItems, same⟩ := Sweep.exists_of_explore scanned chosen
  exact ⟨offer, offered_of_mem_sweeps inSweeps inItems, same, rfl⟩

theorem neighbors_eq_ok (known : problem.Knows solution.plan) :
    ∃ moves, neighbors problem solution = .ok moves := by
  have passes : ∀ entry ∈ sweeps problem solution, ∃ outcome,
      (do return ofExploration? entry.1 (← entry.2.explore (fun _ _ => false) 0)) =
        (.ok outcome : Except Fault _) := by
    intro entry member
    rw [Sweep.explore_of_clean (clean_of_mem_sweeps known member)]
    exact ⟨_, rfl⟩
  obtain ⟨outcomes, explored⟩ := Fault.mapM_eq_ok passes
  unfold neighbors
  rw [explored]
  exact ⟨_, rfl⟩

end Move

theorem Reaches.violations_eq_nil (reaches : Reaches problem first final)
    (feasible : problem.violations first = []) : problem.violations final = [] := by
  induction reaches with
  | refl => exact feasible
  | tail _ taken ih =>
    obtain ⟨offer, offered, rfl⟩ := taken
    exact offered.conserves.1.violations_eq_nil ih

namespace Held

variable [Scalar K] {cost : K}

theorem reaches (held : Held (Move.neighbors problem) first solution cost) :
    Reaches problem first solution ∧ cost = solution.cost := by
  induction held with
  | start => exact ⟨.refl, rfl⟩
  | moved _ listed member ih =>
    obtain ⟨offer, offered, candidate, cost⟩ :=
      Move.exists_offered_of_mem_neighbors listed member
    exact ⟨ih.1.tail ⟨offer, offered, candidate⟩, cost⟩

theorem neighbors_eq_ok (feasible : problem.violations first = [])
    (held : Held (Move.neighbors problem) first solution cost) :
    ∃ moves, Move.neighbors problem solution = .ok moves := by
  have clean := held.reaches.1.violations_eq_nil feasible
  exact Move.neighbors_eq_ok (serves_of_violations_eq_nil clean).knows

end Held

end TruckDrone
