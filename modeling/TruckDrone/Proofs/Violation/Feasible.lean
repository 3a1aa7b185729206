import TruckDrone.Construction.Tours
import TruckDrone.Proofs.Admission
import TruckDrone.Proofs.Plan.Fleet
import TruckDrone.Proofs.Route
import TruckDrone.Proofs.Violation.Tally

/-! A solution has no violation just if its plan serves the problem. The scan over the routes
judges each visit by those before it, which are distinct as long as nothing was found. -/

set_option autoImplicit false

namespace TruckDrone

variable {K : Type} {problem : Problem K} {plan : Plan}

/-- There is one list for each vehicle, the routes in it are of its kind and serve someone, all
routes together visit every customer of the table once and nothing else, and drones are sent only
where they may go. -/
structure Plan.Serves (problem : Problem K) (plan : Plan) : Prop extends plan.Fits problem where
  kinds : ∀ vehicle, ∀ route ∈ plan.routes vehicle, route.kind = vehicle.kind
  someone : ∀ vehicle, ∀ route ∈ plan.routes vehicle, route.body ≠ []
  visits : (plan.allRoutes.flatMap Route.body).Perm problem.customerIds
  dronable : ∀ drone, ∀ route ∈ plan.routes (.drone drone), ∀ id ∈ route.body,
    problem.dronable id = .ok true

namespace Problem

theorem mem_customerIds {id : Nat} : id ∈ problem.customerIds ↔ 1 ≤ id ∧ id < problem.size :=
  Sequence.mem_span

theorem nodup_customerIds (problem : Problem K) : problem.customerIds.Nodup := List.nodup_range'

theorem suits_drone {drone id : Nat} :
    problem.suits (.drone drone) id = true ↔ problem.dronable id = .ok true := by
  unfold suits dronable Sequence.entry
  cases present : problem.customers[id]? <;> simp [Vehicle.isDrone, Vehicle.kind, Except.map]

theorem suits_of_dronable (dronable : ∀ drone, ∀ route ∈ plan.routes (.drone drone),
      ∀ id ∈ route.body, problem.dronable id = .ok true)
    {vehicle : Vehicle} {route : Route} (member : route ∈ plan.routes vehicle) {id : Nat}
    (visited : id ∈ route.body) : problem.suits vehicle id = true := by
  cases vehicle with
  | truck truck => rfl
  | drone drone => exact suits_drone.2 (dronable drone route member id visited)

end Problem

/-! What the validator finds nothing wrong with, part by part. -/

namespace Violation

theorem listDefects_eq_nil {kind : VehicleKind} {expected actual : Nat} :
    listDefects kind expected actual = [] ↔ actual = expected := by
  simp [listDefects, eq_comm]

theorem routeDefects_eq_nil {slot : Slot} {route : Route} :
    routeDefects slot route = [] ↔ route.kind = slot.vehicle.kind ∧ route.body ≠ [] := by
  simp [routeDefects, Route.isEmpty]

theorem visitDefects_eq_nil {slot : Slot} {earlier : List Nat} {id : Nat} :
    visitDefects problem slot earlier id = [] ↔
      (id < problem.size ∧ problem.suits slot.vehicle id = true) ∧ id ∉ earlier := by
  unfold visitDefects Problem.suits Problem.size
  cases present : problem.customers[id]? with
  | none => simp [List.getElem?_eq_none_iff.1 present]
  | some customer =>
    have inside := (List.getElem?_eq_some_iff.1 present).1
    cases slot with
    | mk vehicle position =>
      cases vehicle <;> simp [inside, Vehicle.isDrone, Vehicle.kind, and_comm]

theorem nodup_append_singleton {earlier : List Nat} (distinct : earlier.Nodup) {id : Nat}
    (new : id ∉ earlier) : (earlier ++ [id]).Nodup :=
  (List.perm_append_singleton id earlier).nodup_iff.2 (List.nodup_cons.2 ⟨new, distinct⟩)

/-- Visits that are distinct so far stay so as long as no fault is found. -/
theorem bodyDefects_eq_nil {slot : Slot} {earlier ids : List Nat} (distinct : earlier.Nodup) :
    bodyDefects problem slot earlier ids = [] ↔
      (∀ id ∈ ids, id < problem.size ∧ problem.suits slot.vehicle id = true) ∧
        (earlier ++ ids).Nodup := by
  induction ids generalizing earlier with
  | nil => simpa [bodyDefects] using distinct
  | cons id rest ih =>
    rw [bodyDefects, List.append_eq_nil_iff, visitDefects_eq_nil, List.forall_mem_cons]
    by_cases again : id ∈ earlier
    · have repeated : ¬ (earlier ++ id :: rest).Nodup := fun all =>
        (List.nodup_append.1 all).2.2 id again id (List.mem_cons_self ..) rfl
      simp [again, repeated]
    · rw [ih (nodup_append_singleton distinct again), List.append_assoc, List.singleton_append]
      simp only [again, not_false_eq_true, and_true, and_assoc]

def Sound (problem : Problem K) (entry : Slot × Route) : Prop :=
  entry.2.kind = entry.1.vehicle.kind ∧ entry.2.body ≠ [] ∧
    ∀ id ∈ entry.2.body, id < problem.size ∧ problem.suits entry.1.vehicle id = true

theorem scan_eq_nil {earlier : List Nat} {entries : List (Slot × Route)}
    (distinct : earlier.Nodup) : scan problem earlier entries = [] ↔
      (∀ entry ∈ entries, Sound problem entry) ∧
        (earlier ++ entries.flatMap (·.2.body)).Nodup := by
  -- Each route adds its visits to those by which the next one is judged.
  induction entries generalizing earlier with
  | nil => simpa [scan] using distinct
  | cons entry rest ih =>
    obtain ⟨slot, route⟩ := entry
    rw [scan, List.append_eq_nil_iff, List.append_eq_nil_iff, routeDefects_eq_nil,
      bodyDefects_eq_nil distinct, List.forall_mem_cons, List.flatMap_cons, ← List.append_assoc]
    constructor
    · rintro ⟨⟨⟨kind, someone⟩, served, grown⟩, others⟩
      obtain ⟨sound, all⟩ := (ih grown).1 others
      exact ⟨⟨⟨kind, someone, served⟩, sound⟩, all⟩
    · rintro ⟨⟨⟨kind, someone, served⟩, sound⟩, all⟩
      have grown : (earlier ++ route.body).Nodup := all.of_append_left
      exact ⟨⟨⟨kind, someone⟩, served, grown⟩, (ih grown).2 ⟨sound, all⟩⟩

theorem unserved_eq_nil {visited : List Nat} :
    unserved problem visited = [] ↔ ∀ id ∈ problem.customerIds, id ∈ visited := by
  simp [unserved, Problem.customerIds]

end Violation

open Violation

theorem Problem.violations_eq_nil {solution : Solution K} :
    problem.violations solution = [] ↔
      solution.plan.trucks.length = problem.trucks ∧
      solution.plan.drones.length = problem.drones ∧
      (∀ entry ∈ held problem solution.plan, Sound problem entry) ∧
      (visits problem solution.plan).Nodup ∧
      ∀ id ∈ problem.customerIds, id ∈ visits problem solution.plan := by
  unfold violations
  simp only [List.append_eq_nil_iff, List.map_eq_nil_iff, listDefects_eq_nil, unserved_eq_nil,
    scan_eq_nil List.nodup_nil, List.nil_append, and_assoc]
  rfl

/-! The two directions. -/

theorem Plan.Fits.visits_eq (fits : plan.Fits problem) :
    visits problem plan = plan.allRoutes.flatMap Route.body :=
  visits_eq_of_le fits.trucks.le fits.drones.le

theorem serves_of_violations_eq_nil {solution : Solution K}
    (clean : problem.violations solution = []) : solution.plan.Serves problem := by
  obtain ⟨trucks, drones, sound, distinct, complete⟩ := Problem.violations_eq_nil.1 clean
  have fits : solution.plan.Fits problem := ⟨trucks, drones⟩
  have judged : ∀ {vehicle route}, route ∈ solution.plan.routes vehicle →
      ∃ position, Sound problem (⟨vehicle, position⟩, route) := by
    intro vehicle route member
    obtain ⟨position, held⟩ := fits.exists_held member
    exact ⟨position, sound _ held⟩
  constructor
  · exact fits
  · intro vehicle route member
    obtain ⟨_, kind, -⟩ := judged member
    exact kind
  · intro vehicle route member
    obtain ⟨_, -, someone, -⟩ := judged member
    exact someone
  · -- Both lists are free of repetitions, so they have to agree in their members only.
    rw [← fits.visits_eq, List.perm_ext_iff_of_nodup distinct problem.nodup_customerIds]
    intro id
    constructor
    · intro visited
      obtain ⟨entry, held, member⟩ := List.mem_flatMap.1 visited
      have served : id ≠ depotId := Route.ne_depot member
      obtain ⟨-, -, inside⟩ := sound entry held
      exact Problem.mem_customerIds.2 ⟨Nat.one_le_iff_ne_zero.2 served, (inside id member).1⟩
    · exact complete id
  · intro drone route member id visited
    obtain ⟨_, -, -, served⟩ := judged member
    exact Problem.suits_drone.1 (served id visited).2

namespace Plan.Serves

theorem nodup_visits (serves : plan.Serves problem) : (Violation.visits problem plan).Nodup := by
  rw [serves.visits_eq]
  exact serves.visits.nodup_iff.2 problem.nodup_customerIds

theorem mem_customerIds (serves : plan.Serves problem) {route : Route}
    (member : route ∈ plan.allRoutes) {id : Nat} (visited : id ∈ route.body) :
    id ∈ problem.customerIds :=
  serves.visits.mem_iff.1 (List.mem_flatMap.2 ⟨route, member, visited⟩)

theorem knows (serves : plan.Serves problem) : problem.Knows plan := fun _ member _ visited =>
  (Problem.mem_customerIds.1 (serves.mem_customerIds member visited)).2

theorem suits (serves : plan.Serves problem) {vehicle : Vehicle} {route : Route}
    (member : route ∈ plan.routes vehicle) {id : Nat} (visited : id ∈ route.body) :
    problem.suits vehicle id = true :=
  Problem.suits_of_dronable serves.dronable member visited

theorem sound (serves : plan.Serves problem) {entry : Slot × Route}
    (held : entry ∈ held problem plan) : Sound problem entry := by
  have member := mem_routes_of_occupant? (mem_held.1 held).2
  refine ⟨serves.kinds _ _ member, serves.someone _ _ member, fun id visited => ⟨?_, ?_⟩⟩
  · exact serves.knows _ (mem_allRoutes_of_mem_routes member) id visited
  · exact serves.suits member visited

theorem violations_eq_nil {solution : Solution K} (serves : solution.plan.Serves problem) :
    problem.violations solution = [] := by
  refine Problem.violations_eq_nil.2
    ⟨serves.trucks, serves.drones, fun _ => serves.sound, serves.nodup_visits, ?_⟩
  intro id member
  rw [serves.visits_eq]
  exact serves.visits.mem_iff.2 member

end Plan.Serves

/-- A solution has no violation, and is called feasible, just if its plan serves the problem. -/
theorem Problem.feasible_iff_serves (problem : Problem K) (solution : Solution K) :
    (problem.violations solution = [] ↔ solution.plan.Serves problem) ∧
      (problem.isFeasible solution = true ↔ solution.plan.Serves problem) := by
  have clean : problem.violations solution = [] ↔ solution.plan.Serves problem :=
    ⟨serves_of_violations_eq_nil, Plan.Serves.violations_eq_nil⟩
  exact ⟨clean, List.isEmpty_iff.trans clean⟩

end TruckDrone
