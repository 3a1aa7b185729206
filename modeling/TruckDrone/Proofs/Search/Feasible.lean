import TruckDrone.Proofs.Search.RouteCount

/-! Solving a problem. A solution that serves it is dealt out at random, and whatever a search
holds from there on serves it too, costs what it is priced at and is reported so. -/

set_option autoImplicit false

namespace TruckDrone

variable {K : Type} {problem : Problem K} {first final : Solution K}

/-- The best solution is feasible, has no vehicle on two routes, and costs what is recorded. A
report gives it as it is, route by route, with the progress of the search. -/
structure Outcome.Sound (problem : Problem K) (outcome : Outcome K) : Prop where
  feasible : problem.violations outcome.best = []
  single : ∀ vehicle, (outcome.best.plan.routes vehicle).length ≤ 1
  cost : outcome.cost = outcome.best.cost
  price : outcome.cost = problem.price outcome.best.plan
  report : ∀ name, outcome.report name problem = {
    name
    trucks := problem.trucks
    drones := problem.drones
    iterations := outcome.iterations
    recency := problem.recency
    cost := outcome.cost
    truckPaths := outcome.best.plan.trucks.map fun routes => routes.map Route.stops
    dronePaths := outcome.best.plan.drones.map fun routes => routes.map Route.stops
    feasible := true
    lastImproved := outcome.bestIteration }

def Answers (problem : Problem K) (answer : Except Fault (Option (Outcome K))) : Prop :=
  if problem.servable then ∃ outcome, answer = .ok (some outcome) ∧ outcome.Sound problem
  else answer = .ok none

theorem Reaches.cost_eq (reaches : Reaches problem first final)
    (priced : first.cost = problem.price first.plan) :
    final.cost = problem.price final.plan := by
  cases reaches with
  | refl => exact priced
  | tail _ taken =>
    obtain ⟨offer, offered, rfl⟩ := taken
    exact offered.conserves.2

variable {σ : Type} [RandomSource σ] [LawfulRandomSource σ]

theorem Tabu.initial_eq_ok (served : problem.servable = true) (source : σ) :
    ∃ first, initial problem source = .ok first ∧ problem.violations first = [] ∧
      (∀ vehicle, (first.plan.routes vehicle).length ≤ 1) ∧
      first.cost = problem.price first.plan := by
  obtain ⟨first, left, made, serves, priced⟩ := RandomDeal.construct_eq_ok served source
  refine ⟨first, ?_, serves.violations_eq_nil, RandomDeal.length_routes_construct made, priced⟩
  unfold initial
  rw [made]
  rfl

variable [Scalar K]

theorem Held.sound (feasible : problem.violations first = [])
    (single : ∀ vehicle, (first.plan.routes vehicle).length ≤ 1)
    (priced : first.cost = problem.price first.plan) {outcome : Outcome K}
    (held : Held (Move.neighbors problem) first outcome.best outcome.cost) :
    outcome.Sound problem := by
  obtain ⟨reaches, cost⟩ := held.reaches
  have clean := reaches.violations_eq_nil feasible
  constructor
  · exact clean
  · exact fun vehicle => (reaches.length_routes_le vehicle).trans (single vehicle)
  · exact cost
  · exact cost.trans (reaches.cost_eq priced)
  · intro name
    have passed : problem.isFeasible outcome.best = true := List.isEmpty_iff.2 clean
    unfold Outcome.report Report.ofSolution Report.afterSearch
    rw [passed, cost]
    rfl

theorem Search.Lawful.answers {search : Search K} (lawful : Search.Lawful search)
    (problem : Problem K) (source : σ) : Answers problem (solveBy search problem source) := by
  unfold Answers solveBy
  split
  next served =>
    obtain ⟨first, begun, feasible, single, priced⟩ := Tabu.initial_eq_ok served source
    obtain ⟨outcome, ended⟩ := lawful.ends (Move.neighbors problem) first
      fun _ _ => Held.neighbors_eq_ok feasible
    have held := lawful.holds _ _ _ ended
    refine ⟨outcome, ?_, held.sound feasible single priced⟩
    rw [begun, Fault.ok_bind, ended]
    rfl
  next => rfl

/-- Any lawful search from a lawfully random solution answers every problem, and so does tabu
search in any configuration, from any seed. -/
theorem solve_answers (problem : Problem K) :
    (∀ (search : Search K), Search.Lawful search →
      ∀ (σ : Type) [RandomSource σ] [LawfulRandomSource σ] (source : σ),
        Answers problem (solveBy search problem source)) ∧
    ∀ config : Tabu.Config, Answers problem (solve problem config) := by
  constructor
  · intro search lawful σ _ _ source
    exact lawful.answers problem source
  · intro config
    exact (Tabu.search_lawful config).answers problem _

theorem solve_answers_two_customers :
    let problem : Problem Binary64 :=
      ⟨[.depot 0 0, ⟨1, 0, 1, false⟩, ⟨2, 1, 0, true⟩], 1, 1, 0, fun _ => 0⟩
    problem.servable = true ∧ Search.Lawful (Tabu.search {} : Search Binary64) ∧
      (∃ outcome, solveBy (Tabu.search {}) problem (Generator.ofSeed 7) = .ok (some outcome) ∧
        outcome.Sound problem) ∧
      ∃ outcome, solve problem { seed := some 3 } = .ok (some outcome) ∧
        outcome.Sound problem := by
  intro problem
  have served : problem.servable = true := by decide
  have lawful : Search.Lawful (Tabu.search {} : Search Binary64) := Tabu.search_lawful {}
  have any := (solve_answers problem).1 (Tabu.search {}) lawful Generator (.ofSeed 7)
  have seeded := (solve_answers problem).2 { seed := some 3 }
  rw [Answers, if_pos served] at any seeded
  exact ⟨served, lawful, any, seeded⟩

end TruckDrone
