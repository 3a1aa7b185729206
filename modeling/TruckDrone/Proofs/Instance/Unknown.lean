import TruckDrone.Proofs.Exact
import TruckDrone.Proofs.Instance.Built
import TruckDrone.Proofs.Plan.Fleet
import TruckDrone.Proofs.Violation.Tally

/-! The price of unknown ids. Without rounding, a plan costs infinity just if it visits an id
that is no location, and those are the ids that the validator reports as unknown. -/

set_option autoImplicit false

namespace TruckDrone

def Plan.Strays {K : Type} (problem : Problem K) (plan : Plan) : Prop :=
  ∃ route ∈ plan.allRoutes, ∃ id ∈ route.body, problem.size ≤ id

/-- Every id of a sequence of two or more is an end of one of its legs. -/
theorem Sequence.exists_leg_iff {bad : Nat → Prop} (start next : Nat) (rest : List Nat) :
    (∃ leg ∈ List.zip (start :: next :: rest) (next :: rest), bad leg.1 ∨ bad leg.2) ↔
      ∃ id ∈ start :: next :: rest, bad id := by
  induction rest generalizing start next with
  | nil => simp
  | cons after others ih =>
    rw [List.zip_cons_cons, List.exists_mem_cons_iff, ih, List.exists_mem_cons_iff,
      List.exists_mem_cons_iff bad start, List.exists_mem_cons_iff bad next, or_assoc,
      or_self_left]

namespace Instance

/-! The price. -/

def Measured (inst : Instance EReal) : Prop :=
  ∀ distance ∈ inst.distances.cells, 0 ≤ distance ∧ distance ≠ ⊤

variable {inst : Instance EReal}

theorem leg_nonneg (measured : inst.Measured) (start finish : Nat) :
    0 ≤ inst.leg start finish := by
  unfold leg DistanceTable.get?
  split
  · exact (measured _ (Vector.getElem_mem _)).1
  · exact le_top

theorem leg_eq_top_iff (measured : inst.Measured) (start finish : Nat) :
    inst.leg start finish = ⊤ ↔ inst.distances.size ≤ start ∨ inst.distances.size ≤ finish := by
  unfold leg DistanceTable.get?
  split
  next inside =>
    refine iff_of_false (measured _ (Vector.getElem_mem _)).2 ?_
    omega
  next outside =>
    refine iff_of_true rfl ?_
    omega

theorem routeLength_eq (inst : Instance EReal) (route : Route) : inst.routeLength route =
    Scalar.sum ((route.stops.zip route.stops.tail).map fun leg => inst.leg leg.1 leg.2) := by
  rw [routeLength, List.zip, List.map_zipWith]

theorem routeLength_nonneg (measured : inst.Measured) (route : Route) :
    0 ≤ inst.routeLength route := by
  rw [routeLength_eq]
  exact Exact.sum_nonneg (List.forall_mem_map.2 fun leg _ => leg_nonneg measured ..)

theorem routeLength_eq_top_iff (coherent : inst.Coherent) (measured : inst.Measured)
    (route : Route) :
    inst.routeLength route = ⊤ ↔ ∃ id ∈ route.body, inst.toProblem.size ≤ id := by
  -- The depot is a location, so it adds no infinite leg of its own.
  have depot : ¬ inst.toProblem.size ≤ depotId := Nat.not_le.2 coherent.depot_inside
  obtain ⟨next, rest, stops⟩ : ∃ next rest, route.body ++ [depotId] = next :: rest :=
    List.exists_cons_of_ne_nil (by simp)
  calc inst.routeLength route = ⊤
    _ ↔ ∃ leg ∈ route.stops.zip route.stops.tail, inst.leg leg.1 leg.2 = ⊤ := by
      rw [routeLength_eq, Exact.sum_eq_top_iff, List.mem_map]
      exact List.forall_mem_map.2 fun leg _ => leg_nonneg measured ..
    _ ↔ ∃ leg ∈ route.stops.zip route.stops.tail,
        inst.toProblem.size ≤ leg.1 ∨ inst.toProblem.size ≤ leg.2 := by
      simp only [leg_eq_top_iff measured, coherent.table]
      rfl
    _ ↔ ∃ id ∈ route.stops, inst.toProblem.size ≤ id := by
      rw [Route.stops, List.cons_append, stops]
      exact Sequence.exists_leg_iff depotId next rest
    _ ↔ ∃ id ∈ route.body, inst.toProblem.size ≤ id := by
      simp [Route.stops, or_and_right, exists_or, depot]

theorem speed_admitted (coherent : inst.Coherent) (kind : VehicleKind) :
    0 < inst.speed kind ∧ inst.speed kind ≠ ⊤ := by
  rcases coherent.speeds kind with initial | admitted
  · rw [initial]
    exact ⟨zero_lt_one, EReal.coe_ne_top 1⟩
  · exact Exact.admitted_iff.1 admitted

theorem workingTime_nonneg (coherent : inst.Coherent) (measured : inst.Measured)
    (kind : VehicleKind) (routes : List Route) : 0 ≤ inst.workingTime kind routes := by
  have total := Exact.sum_nonneg
    (List.forall_mem_map.2 fun route (_ : route ∈ routes) => routeLength_nonneg measured route)
  exact EReal.div_nonneg total (speed_admitted coherent kind).1.le

theorem workingTime_eq_top_iff (coherent : inst.Coherent) (measured : inst.Measured)
    (kind : VehicleKind) (routes : List Route) : inst.workingTime kind routes = ⊤ ↔
      ∃ route ∈ routes, ∃ id ∈ route.body, inst.toProblem.size ≤ id := by
  obtain ⟨positive, finite⟩ := speed_admitted coherent kind
  unfold workingTime
  rw [Exact.div_eq_top_iff positive finite, Exact.sum_eq_top_iff, List.mem_map]
  · simp only [routeLength_eq_top_iff coherent measured]
  · exact List.forall_mem_map.2 fun route _ => routeLength_nonneg measured route

theorem workingTimes_nonneg (coherent : inst.Coherent) (measured : inst.Measured) (plan : Plan) :
    ∀ time ∈ inst.workingTimes plan, 0 ≤ time := by
  refine List.forall_mem_append.2 ⟨?_, ?_⟩ <;>
    exact List.forall_mem_map.2 fun routes _ => workingTime_nonneg coherent measured ..

theorem top_mem_workingTimes_iff (coherent : inst.Coherent) (measured : inst.Measured)
    (plan : Plan) : ⊤ ∈ inst.workingTimes plan ↔ plan.Strays inst.toProblem := by
  simp only [workingTimes, List.mem_append, List.mem_map,
    workingTime_eq_top_iff coherent measured, Plan.Strays, Plan.allRoutes, List.mem_flatten]
  grind

theorem cost_eq_top_iff (coherent : inst.Coherent) (measured : inst.Measured) (plan : Plan) :
    inst.cost plan = ⊤ ↔ plan.Strays inst.toProblem := by
  rw [← top_mem_workingTimes_iff coherent measured, cost]
  cases inst.objective with
  | makespan => exact Exact.largest_eq_top_iff
  | totalTime => exact Exact.sum_eq_top_iff (workingTimes_nonneg coherent measured plan)

end Instance

/-! The validator. -/

namespace Violation

variable {K : Type} {problem : Problem K} {solution : Solution K}

theorem exists_unknown_iff :
    (∃ id slot, .unknownCustomer id slot ∈ problem.violations solution) ↔
      ∃ id ∈ visits problem solution.plan, problem.size ≤ id := by
  have found : (∃ id slot, .unknownCustomer id slot ∈ problem.violations solution) ↔
      0 < tally (problem.violations solution) .unknownCustomer := by
    rw [tally, List.countP_pos_iff]
    constructor
    · rintro ⟨id, slot, member⟩
      exact ⟨_, member, rfl⟩
    · rintro ⟨violation, member, unknown⟩
      cases violation with
      | unknownCustomer id slot => exact ⟨id, slot, member⟩
      | _ => cases unknown
  have counted : solution.plan.load problem.fleet (weigh problem .unknownCustomer) =
      (visits problem solution.plan).countP fun id => (problem.customers[id]?).isNone :=
    load_weigh_of_visits (fun _ _ => rfl) fun _ => rfl
  rw [found, tally_violations]
  simp [counted, Problem.size]

/-- A plan without surplus lists holds all its routes in the fleet. -/
theorem mem_visits_iff {plan : Plan} (trucks : plan.trucks.length ≤ problem.trucks)
    (drones : plan.drones.length ≤ problem.drones) {id : Nat} :
    id ∈ visits problem plan ↔ ∃ route ∈ plan.allRoutes, id ∈ route.body := by
  rw [visits_eq_of_le trucks drones, List.mem_flatMap]

theorem exists_unknown_iff_strays {plan : Plan} (trucks : plan.trucks.length ≤ problem.trucks)
    (drones : plan.drones.length ≤ problem.drones) :
    (∃ id slot, .unknownCustomer id slot ∈ problem.violations (problem.assess plan)) ↔
      plan.Strays problem := by
  rw [exists_unknown_iff]
  constructor
  · rintro ⟨id, visited, outside⟩
    obtain ⟨route, member, served⟩ := (mem_visits_iff trucks drones).1 visited
    exact ⟨route, member, id, served, outside⟩
  · rintro ⟨route, member, id, served, outside⟩
    exact ⟨id, (mem_visits_iff trucks drones).2 ⟨route, member, served⟩, outside⟩

end Violation

/-- Where distances are numbers and none is negative, a plan costs infinity just if it visits an
id that is no location; and unless it has more lists than there are vehicles, just if the validator
reports an unknown customer. -/
theorem Instance.infinite_iff_unknown {inst : Instance EReal} (built : inst.Built)
    (measured : inst.Measured) (plan : Plan) :
    let problem := inst.toProblem
    let solution := problem.assess plan
    (inst.cost plan = Scalar.infinity ↔ plan.Strays problem) ∧
    (plan.trucks.length ≤ problem.trucks → plan.drones.length ≤ problem.drones →
      (solution.cost = Scalar.infinity ↔
        ∃ id slot, .unknownCustomer id slot ∈ problem.violations solution)) := by
  intro problem solution
  have priced := cost_eq_top_iff built.coherent measured plan
  refine ⟨priced, fun trucks drones => ?_⟩
  rw [Violation.exists_unknown_iff_strays trucks drones]
  exact priced

/-- The place of the leg to id 3 lies in the table of two locations, but in another row. -/
theorem Instance.infinite_iff_unknown_beyond_row :
    ∃ opened measured faster inst : Instance EReal,
      ofCustomers? [.depot 0 0, ⟨1, 1, 0, false⟩] 1 1 = some opened ∧
      opened.change? (.distances ⟨2, .replicate _ 1⟩) = some measured ∧
      measured.change? (.speed .truck 2) = some faster ∧
      faster.change? (.objective .totalTime) = some inst ∧
      inst.Measured ∧ inst.speed .truck = 2 ∧
      let problem := inst.toProblem
      let plan : Plan := ⟨[[.truck [1], .truck [3]]], [[]]⟩
      inst.cost plan = Scalar.infinity ∧
        ∃ id slot, .unknownCustomer id slot ∈ problem.violations (problem.assess plan) := by
  have admitted : (Scalar.isFinite (2 : EReal) && Scalar.less 0 (2 : EReal)) = true :=
    Exact.admitted_iff.2 ⟨zero_lt_two, EReal.natCast_ne_top 2⟩
  have speed : ∀ inst : Instance EReal,
      inst.change? (.speed .truck 2) = some { inst with truckSpeed := 2 } := by
    intro inst
    rw [change?, setSpeed, if_pos admitted]
  have ones : ∀ distance ∈ Vector.replicate (2 * 2) (1 : EReal), 0 ≤ distance ∧ distance ≠ ⊤ := by
    intro distance member
    rw [(Vector.mem_replicate.1 member).2]
    exact ⟨zero_le_one, EReal.coe_ne_top 1⟩
  refine ⟨_, _, _, _, rfl, rfl, speed _, rfl, ones, rfl, ?_⟩
  intro problem plan
  have opened := Built.opened (K := EReal) [.depot 0 0, ⟨1, 1, 0, false⟩] 1 1 rfl
  have measured := opened.changed (.distances ⟨2, .replicate _ 1⟩) rfl
  have built := (measured.changed (.speed .truck 2) (speed _)).changed (.objective .totalTime) rfl
  obtain ⟨priced, judged⟩ := infinite_iff_unknown built ones plan
  have infinite := priced.2 ⟨.truck [3], by decide, 3, by decide, by decide⟩
  exact ⟨infinite, (judged (by decide) (by decide)).1 infinite⟩

end TruckDrone
