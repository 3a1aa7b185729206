import TruckDrone.Json.Report
import TruckDrone.Proofs.Json.Document
import TruckDrone.Proofs.Plan.Fleet
import TruckDrone.Proofs.Route

/-! Reports and their JSON text. A report with a finite cost is read back from its text, and one
with any other cost is not; the plan can be rebuilt from its paths. -/

set_option autoImplicit false

namespace TruckDrone

open Json Json.Reader

namespace Report

structure Sized (report : Report Binary64) : Prop where
  trucks : report.trucks < UInt64.size
  drones : report.drones < UInt64.size
  iterations : report.iterations < UInt64.size
  recency : report.recency < UInt64.size
  lastImproved : report.lastImproved < UInt64.size
  ids : ∀ routes ∈ report.truckPaths ++ report.dronePaths, ∀ stops ∈ routes, ∀ id ∈ stops,
    id < UInt64.size

theorem reads_paths {paths : List (List (List Nat))}
    (ids : ∀ routes ∈ paths, ∀ stops ∈ routes, ∀ id ∈ stops, id < UInt64.size) :
    Reads (list (list (list natural))) (pathsDocument paths) (.ok paths) :=
  reads_list fun routes inPaths => reads_list fun stops inRoutes => reads_list fun id inStops =>
    reads_natural (ids routes inPaths stops inRoutes id inStops)

variable {report : Report Binary64}

theorem gathers_front (sized : report.Sized) {others : List (String × Document)} {layout : Layout}
    {depth : Nat} {outcome : Except Refusal Draft}
    (gathers : Gathers (member Draft.fields)
      { name := some report.name, trucks := some report.trucks, drones := some report.drones,
        iterations := some report.iterations, recency := some report.recency }
      (Document.writeFields layout depth others) outcome) :
    Gathers (member Draft.fields) {} (Document.writeFields layout depth
      (("problem", .text report.name) ::
        ("trucks_count", .natural report.trucks) ::
        ("drones_count", .natural report.drones) ::
        ("iterations", .natural report.iterations) ::
        ("tabu_size", .natural report.recency) :: others)) outcome := by
  refine gathers_field rfl rfl ((reads_text report.name).map _) ?_
  refine gathers_field rfl rfl ((reads_natural sized.trucks).map _) ?_
  refine gathers_field rfl rfl ((reads_natural sized.drones).map _) ?_
  refine gathers_field rfl rfl ((reads_natural sized.iterations).map _) ?_
  exact gathers_field rfl rfl ((reads_natural sized.recency).map _) gathers

/-- A report is read with the cost that the cost is read as, and everything else as it was. -/
theorem reads_report (sized : report.Sized) {outcome : Except Refusal Binary64}
    (cost : Reads float (.float report.cost) outcome) :
    Reads reader report.toDocument (outcome.map fun cost => { report with cost }) := by
  have trucks := fun routes member => sized.ids routes (List.mem_append_left _ member)
  have drones := fun routes member => sized.ids routes (List.mem_append_right _ member)
  intro layout depth
  rw [toDocument, Document.write]
  cases outcome with
  | error refusal =>
    exact takes_record (gathers_front sized (refuses_field rfl rfl (cost.map _))) rfl
  | ok x =>
    apply takes_record
    · apply gathers_front sized
      apply gathers_field rfl rfl (cost.map _)
      apply gathers_field rfl rfl ((reads_paths trucks).map _)
      apply gathers_field rfl rfl ((reads_paths drones).map _)
      apply gathers_field rfl rfl ((reads_flag report.feasible).map _)
      exact gathers_field rfl rfl ((reads_natural sized.lastImproved).map _) .done
    · rfl

theorem ofJson_toJson (sized : report.Sized) : ofJson report.toJson =
    (whole float (String.ofList (Document.floatText report.cost))).map
      fun cost => { report with cost } :=
  (reads_report sized (reads_float report.cost)).whole_eq .indented

/-! The plan of a report. -/

def toPlan {K : Type} (report : Report K) : Plan where
  trucks := report.truckPaths.map fun routes => routes.map (Route.ofIds .truck)
  drones := report.dronePaths.map fun routes => routes.map (Route.ofIds .drone)

theorem map_ofIds_paths {kind : VehicleKind} {lists : List (List Route)}
    (kinds : ∀ routes ∈ lists, ∀ route ∈ routes, route.kind = kind) :
    (paths lists).map (fun routes => routes.map (Route.ofIds kind)) = lists := by
  have rebuilt : ∀ routes ∈ lists, (routes.map Route.stops).map (Route.ofIds kind) = routes := by
    intro routes member
    rw [List.map_map]
    exact (List.map_congr_left fun route inRoutes =>
      Route.ofIds_stops (kinds routes member route inRoutes)).trans (List.map_id _)
  rw [paths, List.map_map]
  exact (List.map_congr_left rebuilt).trans (List.map_id _)

variable {K : Type} {plan : Plan}

theorem toPlan_ofSolution
    (kinds : ∀ vehicle, ∀ route ∈ plan.routes vehicle, route.kind = vehicle.kind) (name : String)
    (problem : Problem K) : (ofSolution name problem (problem.assess plan)).toPlan = plan := by
  have trucks := map_ofIds_paths (Plan.kind_of_mem_lists kinds .truck)
  have drones := map_ofIds_paths (Plan.kind_of_mem_lists kinds .drone)
  cases plan with
  | mk truckLists droneLists => exact congrArg₂ Plan.mk trucks drones

theorem routeCount_ofSolution (name : String) (problem : Problem K) (plan : Plan) :
    (ofSolution name problem (problem.assess plan)).routeCount = plan.routeCount := by
  simp [routeCount, ofSolution, paths, Plan.routeCount, Plan.allRoutes, Problem.assess,
    Function.comp_def]

end Report

/-- A report is read back from its text if its cost is finite, given that the text of the cost is
read back as that double. Where that text is read as another double, the report comes back with
this cost and is else the same; a cost that is not finite is refused. The report of a solution
whose routes are of their vehicles' kinds determines the plan, and with it the cost, the verdict
and the number of routes. -/
theorem Report.round_trip :
    (∀ report : Report Binary64, report.Sized →
      (report.cost.isFinite = true →
        whole float (String.ofList (Document.floatText report.cost)) = .ok report.cost →
          ofJson report.toJson = .ok report) ∧
      (∀ cost, whole float (String.ofList (Document.floatText report.cost)) = .ok cost →
        ofJson report.toJson = .ok { report with cost }) ∧
      (report.cost.isFinite = false → ofJson report.toJson = .error .mismatch)) ∧
    (∀ (problem : Problem Binary64) (plan : Plan) (name : String) (iterations lastImproved : Nat),
      (∀ vehicle, ∀ route ∈ plan.routes vehicle, route.kind = vehicle.kind) →
        let solution := problem.assess plan
        let report := (ofSolution name problem solution).afterSearch iterations lastImproved
        report.toPlan = plan ∧
        (problem.assess report.toPlan).cost = report.cost ∧
        report.feasible = problem.isFeasible (problem.assess report.toPlan) ∧
        report.routeCount = plan.routeCount) := by
  refine ⟨fun report sized => ⟨fun _ back => ?_, fun cost read => ?_, fun infinite => ?_⟩, ?_⟩
  · rw [ofJson_toJson sized, back]
    rfl
  · rw [ofJson_toJson sized, read]
    rfl
  · have text : Document.floatText report.cost = ['n', 'u', 'l', 'l'] := by
      rw [Document.floatText, infinite]
      rfl
    rw [ofJson_toJson sized, text, takes_null.whole_eq]
    rfl
  · intro problem plan name iterations lastImproved kinds solution report
    have rebuilt : report.toPlan = plan := toPlan_ofSolution kinds name problem
    rw [rebuilt]
    exact ⟨rfl, rfl, rfl, routeCount_ofSolution name problem plan⟩

/-- A name with quotes and controls, a cost with a fraction and a vehicle without routes. The cost
124.38793290406359 is read as the next double. -/
theorem Report.round_trip_quoted :
    let problem : Problem Binary64 :=
      ⟨[.depot 0 0, ⟨1, 1, 0, true⟩], 1, 1, 10, fun _ => ⟨0x4029000000000000⟩⟩
    let plan : Plan := ⟨[[.truck [1]]], [[]]⟩
    let report :=
      (ofSolution "\"north\"\t\x01" problem (problem.assess plan)).afterSearch 7 3
    let cost : Binary64 := ⟨0x405f18d3e487ffb5⟩
    let next : Binary64 := ⟨0x405f18d3e487ffb6⟩
    report.Sized ∧ report.cost.isFinite = true ∧
      whole float (String.ofList (Document.floatText report.cost)) = .ok report.cost ∧
      ofJson report.toJson = .ok report ∧ report.toPlan = plan ∧ report.routeCount = 1 ∧
      ofJson { report with cost }.toJson = .ok { report with cost := next } ∧
      ofJson { report with cost := Binary64.infinity }.toJson = .error .mismatch := by
  intro problem plan report cost next
  have sized : report.Sized :=
    ⟨by decide, by decide, by decide, by decide, by decide, by decide⟩
  have dearer : { report with cost }.Sized := { sized with }
  have infinite : { report with cost := Binary64.infinity }.Sized := { sized with }
  have back : whole float (String.ofList (Document.floatText report.cost)) = .ok report.cost := by
    decide +kernel
  have passed : whole float (String.ofList (Document.floatText cost)) = .ok next := by
    decide +kernel
  have kinds : ∀ vehicle, ∀ route ∈ plan.routes vehicle, route.kind = vehicle.kind := by
    rintro (i | i) route member
    · cases i with
      | zero => exact congrArg Route.kind (List.mem_singleton.1 member)
      | succ i => cases member
    · cases i <;> cases member
  obtain ⟨texts, plans⟩ := round_trip
  obtain ⟨rebuilt, -, -, count⟩ := plans problem plan "\"north\"\t\x01" 7 3 kinds
  exact ⟨sized, by decide, back, (texts report sized).1 (by decide) back, rebuilt, count,
    (texts _ dearer).2.1 next passed, (texts _ infinite).2.2 (by decide)⟩

end TruckDrone
