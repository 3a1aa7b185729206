/-! Vehicles and their unified numbering: trucks first, then drones. -/

set_option autoImplicit false

namespace TruckDrone

inductive VehicleKind where
  | truck
  | drone
  deriving DecidableEq, Repr

inductive Vehicle where
  | truck (index : Nat)
  | drone (index : Nat)
  deriving DecidableEq, Repr

namespace Vehicle

def kind : Vehicle → VehicleKind
  | .truck _ => .truck
  | .drone _ => .drone

def index : Vehicle → Nat
  | .truck i => i
  | .drone i => i

def isDrone (vehicle : Vehicle) : Bool := vehicle.kind = .drone

def ofUnified (trucks position : Nat) : Vehicle :=
  if position < trucks then .truck position else .drone (position - trucks)

def unified (trucks : Nat) : Vehicle → Nat
  | .truck i => i
  | .drone i => trucks + i

theorem unified_ofUnified (trucks position : Nat) :
    (ofUnified trucks position).unified trucks = position := by
  unfold ofUnified
  split
  · rfl
  · simp only [unified]
    omega

end Vehicle

def fleet (trucks drones : Nat) : List Vehicle :=
  (List.range (trucks + drones)).map (Vehicle.ofUnified trucks)

theorem fleet_eq_append (trucks drones : Nat) :
    fleet trucks drones = (List.range trucks).map .truck ++ (List.range drones).map .drone := by
  rw [fleet, List.range_add, List.map_append, List.map_map]
  congr 1
  · refine List.map_congr_left fun i member => ?_
    simp [Vehicle.ofUnified, List.mem_range.1 member]
  · refine List.map_congr_left fun i _ => ?_
    simp [Vehicle.ofUnified]

theorem mem_fleet {trucks drones : Nat} {vehicle : Vehicle} :
    vehicle ∈ fleet trucks drones ↔ match vehicle with
      | .truck i => i < trucks
      | .drone i => i < drones := by
  rw [fleet_eq_append]
  cases vehicle <;> simp

end TruckDrone
