import TruckDrone.Proofs.Neighborhood.Order

/-! Plans that have one list of routes for each vehicle of the fleet. All their routes are those
of the fleet, in unified order. -/

set_option autoImplicit false

namespace TruckDrone.Plan

structure Fits {K : Type} (problem : Problem K) (plan : Plan) : Prop where
  trucks : plan.trucks.length = problem.trucks
  drones : plan.drones.length = problem.drones

variable {K : Type} {problem : Problem K} {plan : Plan}

theorem map_snd_slots (plan : Plan) (vehicle : Vehicle) :
    (plan.slots vehicle).map Prod.snd = plan.routes vehicle := by
  rw [slots, List.map_map]
  exact List.zipIdx_map_fst 0 _

theorem flatMap_range_getD {lists : List (List Route)} {count : Nat}
    (covers : lists.length ≤ count) :
    ((List.range count).flatMap fun i => (lists[i]?).getD []) = lists.flatten := by
  induction lists generalizing count with
  | nil => simp
  | cons head tail ih =>
    obtain ⟨rest, rfl⟩ := Nat.exists_eq_add_of_le' (Nat.le_of_add_left_le covers)
    rw [List.range_succ_eq_map, List.flatMap_cons, List.flatMap_map, List.flatten_cons,
      ← ih (Nat.le_of_succ_le_succ covers)]
    rfl

/-- Where no list is beyond the fleet, the fleet holds all routes. -/
theorem flatMap_routes_of_le (trucks : plan.trucks.length ≤ problem.trucks)
    (drones : plan.drones.length ≤ problem.drones) :
    problem.fleet.flatMap plan.routes = plan.allRoutes := by
  rw [Problem.fleet, fleet_eq_append, List.flatMap_append, List.flatMap_map, List.flatMap_map,
    allRoutes, List.flatten_append, ← flatMap_range_getD trucks, ← flatMap_range_getD drones]
  rfl

theorem map_snd_held (trucks : plan.trucks.length ≤ problem.trucks)
    (drones : plan.drones.length ≤ problem.drones) :
    (Violation.held problem plan).map Prod.snd = plan.allRoutes := by
  rw [← flatMap_routes_of_le trucks drones, Violation.held, List.map_flatMap]
  congr 1
  funext vehicle
  exact map_snd_slots plan vehicle

theorem mem_routes_of_occupant? {slot : Slot} {route : Route}
    (occupied : plan.occupant? slot = some route) : route ∈ plan.routes slot.vehicle :=
  List.mem_of_getElem? occupied

theorem exists_occupant? {vehicle : Vehicle} {route : Route}
    (member : route ∈ plan.routes vehicle) :
    ∃ position, plan.occupant? ⟨vehicle, position⟩ = some route :=
  List.mem_iff_getElem?.1 member

theorem mem_allRoutes_of_mem_routes {vehicle : Vehicle} {route : Route}
    (member : route ∈ plan.routes vehicle) : route ∈ plan.allRoutes := by
  obtain ⟨_, occupied⟩ := exists_occupant? member
  exact mem_allRoutes occupied

theorem kind_of_mem_lists
    (kinds : ∀ vehicle, ∀ route ∈ plan.routes vehicle, route.kind = vehicle.kind)
    (kind : VehicleKind) : ∀ routes ∈ plan.lists kind, ∀ route ∈ routes, route.kind = kind := by
  intro routes listed route member
  obtain ⟨i, entry⟩ := List.mem_iff_getElem?.1 listed
  have held : route ∈ ((plan.lists kind)[i]?).getD [] := by
    rw [entry]
    exact member
  cases kind with
  | truck => exact kinds (.truck i) route held
  | drone => exact kinds (.drone i) route held

namespace Fits

theorem flatMap_routes (fits : plan.Fits problem) :
    problem.fleet.flatMap plan.routes = plan.allRoutes :=
  flatMap_routes_of_le fits.trucks.le fits.drones.le

theorem mem_fleet (fits : plan.Fits problem) {vehicle : Vehicle} {route : Route}
    (member : route ∈ plan.routes vehicle) : vehicle ∈ problem.fleet := by
  have inside := index_lt_of_routes_ne_nil (List.ne_nil_of_mem member)
  rw [Problem.fleet, TruckDrone.mem_fleet]
  cases vehicle with
  | truck i => exact fits.trucks ▸ inside
  | drone i => exact fits.drones ▸ inside

theorem routes_eq_nil (fits : plan.Fits problem) {vehicle : Vehicle}
    (outside : vehicle ∉ problem.fleet) : plan.routes vehicle = [] := by
  by_contra some
  obtain ⟨route, held⟩ := List.exists_mem_of_ne_nil _ some
  exact outside (fits.mem_fleet held)

theorem exists_held (fits : plan.Fits problem) {vehicle : Vehicle} {route : Route}
    (member : route ∈ plan.routes vehicle) :
    ∃ position, (⟨vehicle, position⟩, route) ∈ Violation.held problem plan := by
  obtain ⟨position, occupied⟩ := exists_occupant? member
  exact ⟨position, Violation.mem_held.2 ⟨fits.mem_fleet member, occupied⟩⟩

end Fits

end TruckDrone.Plan
