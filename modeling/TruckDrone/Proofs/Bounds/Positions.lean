import Mathlib.Data.List.Forall2
import TruckDrone.Proofs.Fault
import TruckDrone.Route
import TruckDrone.Sequence

/-! Positions that are computed before they are used. A difference of two positions is refused where
it would fall below zero, and a slice where it does not lie within the list. -/

set_option autoImplicit false

namespace TruckDrone

variable {α β : Type}

theorem Fault.mapM_eq_ok_of_forall₂ {step : α → Except Fault β} {items : List α} {results : List β}
    (gives : List.Forall₂ (fun item result => step item = .ok result) items results) :
    items.mapM step = .ok results := by
  induction gives with
  | nil => rfl
  | cons here _ ih =>
    rw [List.mapM_cons, here, ok_bind, ih]
    rfl

theorem Fault.mapM_eq_map {step : α → Except Fault β} {change : α → β} {items : List α}
    (gives : ∀ item ∈ items, step item = .ok (change item)) :
    items.mapM step = .ok (items.map change) := by
  apply mapM_eq_ok_of_forall₂
  rw [List.forall₂_map_right_iff, List.forall₂_same]
  exact gives

namespace Sequence

def back (position places : Nat) : Except Fault Nat :=
  if places ≤ position then .ok (position - places) else .error (.outOfRange places position)

def slice (items : List α) (low high : Nat) : Except Fault (List α) :=
  if low ≤ high ∧ high ≤ items.length then .ok ((items.take high).drop low)
  else .error (.outOfRange high items.length)

def successions (items : List α) : Except Fault (List (α × α)) := do
  let last ← back items.length 1
  (List.range last).mapM fun i => do
    let here ← entry items i
    let next ← entry items (i + 1)
    return (here, next)

theorem back_eq_ok {position places : Nat} (enough : places ≤ position) :
    back position places = .ok (position - places) := if_pos enough

theorem slice_eq_ok {items : List α} {low high : Nat} (ordered : low ≤ high)
    (inside : high ≤ items.length) : slice items low high = .ok ((items.take high).drop low) :=
  if_pos ⟨ordered, inside⟩

theorem successions_eq_ok {items : List α} (someone : items ≠ []) :
    successions items = .ok (items.zip items.tail) := by
  have enough : 1 ≤ items.length := List.length_pos_iff.2 someone
  rw [successions, back_eq_ok enough, Fault.ok_bind]
  apply Fault.mapM_eq_ok_of_forall₂
  rw [List.forall₂_iff_get]
  refine ⟨by simp, fun i inRange _ => ?_⟩
  have inside : i + 1 < items.length := by
    rw [List.length_range] at inRange
    omega
  simp [entry_eq_ok inside, entry_eq_ok (Nat.lt_of_succ_lt inside)]

end Sequence

/-! A route by its stops, and a fleet by its positions. -/

namespace Route

def inner (route : Route) : Except Fault (List Nat) := do
  let last ← Sequence.back route.stops.length 1
  Sequence.slice route.stops 1 last

def innerSize (route : Route) : Except Fault Nat := Sequence.back route.stops.length 2

theorem inner_eq_ok (route : Route) : route.inner = .ok route.body := by
  have length : route.stops.length - 1 = route.size + 1 := by
    rw [length_stops]
    rfl
  have inside : route.size + 1 ≤ route.stops.length := by
    rw [length_stops]
    omega
  rw [inner, Sequence.back_eq_ok (by rw [length_stops]; omega), Fault.ok_bind, length,
    Sequence.slice_eq_ok (by omega) inside]
  simp [stops, size]

theorem innerSize_eq_ok (route : Route) : route.innerSize = .ok route.size := by
  rw [innerSize, Sequence.back_eq_ok (by rw [length_stops]; omega), length_stops,
    Nat.add_sub_cancel]

end Route

/-- The vehicle at a position of the unified numbering, drones being counted from the last truck
on. -/
def Vehicle.atPosition (trucks position : Nat) : Except Fault Vehicle :=
  if position < trucks then .ok (.truck position)
  else .drone <$> Sequence.back position trucks

theorem Vehicle.atPosition_eq_ok (trucks position : Nat) :
    atPosition trucks position = .ok (ofUnified trucks position) := by
  unfold atPosition ofUnified
  split
  · rfl
  · rw [Sequence.back_eq_ok (by omega)]
    rfl

def fleetByPosition (trucks drones : Nat) : Except Fault (List Vehicle) :=
  (List.range (trucks + drones)).mapM (Vehicle.atPosition trucks)

theorem fleetByPosition_eq_ok (trucks drones : Nat) :
    fleetByPosition trucks drones = .ok (fleet trucks drones) :=
  Fault.mapM_eq_map fun position _ => Vehicle.atPosition_eq_ok trucks position

end TruckDrone
