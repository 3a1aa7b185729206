import TruckDrone.Proofs.Construction.NearestNeighbor
import TruckDrone.Proofs.Distance
import TruckDrone.Proofs.Instance.Built
import TruckDrone.Proofs.Search.Feasible

/-! What holds of every instance that can be obtained, whatever speeds and distances were asked for
on the way, and that both constructions and the search have an answer for it. -/

set_option autoImplicit false

namespace TruckDrone.Instance

structure Sound (inst : Instance Binary64) : Prop where
  numbered : ∀ (position : Nat) (inside : position < inst.customers.length),
    inst.customers[position].id = position
  depot : ∃ depot others, inst.customers = depot :: others ∧ depot.dronable = false
  vehicles : 0 < inst.trucks + inst.drones
  speeds : ∀ kind, Scalar.isFinite (inst.speed kind) = true ∧
    Scalar.less 0 (inst.speed kind) = true
  rows : inst.distances.rows.length = inst.customers.length
  columns : ∀ row ∈ inst.distances.rows, row.length = inst.customers.length
  cells : inst.distances.cells.toList.length = inst.customers.length * inst.customers.length
  distances : ∀ start < inst.customers.length, ∀ finish < inst.customers.length,
    ∃ distance, inst.distances.get? start finish = some distance ∧
      inst.distances.get start finish = .ok distance
  servable : inst.toProblem.servable = true

theorem Coherent.servable {K : Type} [Scalar K] {inst : Instance K} (coherent : inst.Coherent) :
    inst.toProblem.servable = true := by
  rw [Problem.servable_iff]
  rcases Nat.eq_zero_or_pos inst.trucks with none | some
  · have drones : 0 < inst.trucks + inst.drones := coherent.vehicles
    rw [none, Nat.zero_add] at drones
    exact .inr ⟨drones, coherent.reached none⟩
  · exact .inl some

theorem Coherent.sound {inst : Instance Binary64} (coherent : inst.Coherent) : inst.Sound where
  numbered := coherent.numbered
  depot := coherent.depot
  vehicles := coherent.vehicles
  speeds kind := by
    rcases coherent.speeds kind with initial | admitted
    · rw [initial]
      exact ⟨by decide, by decide⟩
    · exact (Bool.and_eq_true _ _).mp admitted
  rows := by rw [DistanceTable.length_rows, coherent.table]
  columns row member := by rw [DistanceTable.length_of_mem_rows _ member, coherent.table]
  cells := by rw [DistanceTable.length_cells, coherent.table]
  distances start row finish column := by
    rw [← coherent.table] at row column
    exact inst.distances.exists_distance row column
  servable := coherent.servable

/-- However an instance was obtained, it is sound, and neither of the constructions nor a lawful
search, tabu search among them, fails on it or is without a solution. -/
theorem built_served {inst : Instance Binary64} (built : inst.Built) :
    inst.Sound ∧
    (∀ (σ : Type) [RandomSource σ] [LawfulRandomSource σ] (source : σ), ∃ solution left,
      RandomDeal.construct inst.toProblem source = .ok (some solution, left)) ∧
    (∃ solution, NearestNeighbor.construct inst.toProblem inst.distances = .ok (some solution)) ∧
    (∀ search : Search Binary64, Search.Lawful search →
      ∀ (σ : Type) [RandomSource σ] [LawfulRandomSource σ] (source : σ), ∃ outcome,
        solveBy search inst.toProblem source = .ok (some outcome)) ∧
    ∀ config : Tabu.Config, ∃ outcome, solve inst.toProblem config = .ok (some outcome) := by
  have sound := built.coherent.sound
  have solved : ∀ search : Search Binary64, Search.Lawful search →
      ∀ (σ : Type) [RandomSource σ] [LawfulRandomSource σ] (source : σ), ∃ outcome,
        solveBy search inst.toProblem source = .ok (some outcome) := by
    intro search lawful σ _ _ source
    have answers := lawful.answers inst.toProblem source
    rw [Answers, if_pos sound.servable] at answers
    obtain ⟨outcome, answered, -⟩ := answers
    exact ⟨outcome, answered⟩
  refine ⟨sound, fun σ _ _ source => ?_, ?_, solved, fun config => ?_⟩
  · obtain ⟨solution, left, made, -⟩ := RandomDeal.construct_eq_ok sound.servable source
    exact ⟨solution, left, made⟩
  · have table : inst.toProblem.size ≤ inst.distances.size := built.coherent.table.ge
    obtain ⟨solution, made, -⟩ := NearestNeighbor.construct_eq_ok sound.servable table
    exact ⟨solution, made⟩
  · exact solved _ (Tabu.search_lawful config) _ _

/-- Of the speeds asked for (no number, -1, 2, infinity, 0) only the third is admitted. -/
theorem built_served_refused_speeds :
    ∃ opened inst : Instance Binary64,
      ofCustomers? [.depot 0 0, ⟨1, 1, 0, true⟩] 0 1 = some opened ∧
      [.speed .drone .undefined, .speed .drone ⟨0xbff0000000000000⟩,
          .speed .drone ⟨0x4000000000000000⟩, .speed .drone .infinity, .distances (.zero 2),
          .speed .drone 0].foldlM (fun inst change => inst.change? change) opened = some inst ∧
      inst.speed .drone = ⟨0x4000000000000000⟩ ∧ inst.Built ∧ inst.Sound ∧
      (∃ solution, NearestNeighbor.construct inst.toProblem inst.distances = .ok (some solution)) ∧
      (∃ outcome, solveBy (Tabu.search {}) inst.toProblem (Generator.ofSeed 7) =
        .ok (some outcome)) ∧
      ∃ outcome, solve inst.toProblem {} = .ok (some outcome) := by
  have opened := Built.opened (K := Binary64) [.depot 0 0, ⟨1, 1, 0, true⟩] 0 1 rfl
  have slower := (opened.changed (.speed .drone .undefined) rfl).changed
    (.speed .drone ⟨0xbff0000000000000⟩) rfl
  have faster := (slower.changed (.speed .drone ⟨0x4000000000000000⟩) rfl).changed
    (.speed .drone .infinity) rfl
  have built := (faster.changed (.distances (.zero 2)) rfl).changed (.speed .drone 0) rfl
  obtain ⟨sound, -, nearest, searched, solved⟩ := built_served built
  exact ⟨_, _, rfl, rfl, by decide +kernel, built, sound, nearest,
    searched _ (Tabu.search_lawful {}) Generator (.ofSeed 7), solved {}⟩

end TruckDrone.Instance
