import TruckDrone.Customer
import TruckDrone.Sequence
import TruckDrone.Vehicle

/-! Trips from the depot through some customers and back. -/

set_option autoImplicit false

namespace TruckDrone

structure Route where
  kind : VehicleKind
  body : List Nat
  depotFree : depotId ∉ body
  deriving DecidableEq, Repr

namespace Route

/-- The trip that serves the given ids in order, entries of the depot dropped. -/
def ofIds (kind : VehicleKind) (ids : List Nat) : Route where
  kind := kind
  body := ids.filter (· ≠ depotId)
  depotFree := by simp

def truck (ids : List Nat) : Route := ofIds .truck ids

def drone (ids : List Nat) : Route := ofIds .drone ids

def stops (route : Route) : List Nat := depotId :: route.body ++ [depotId]

def size (route : Route) : Nat := route.body.length

def isEmpty (route : Route) : Bool := route.body.isEmpty

@[simp] theorem kind_ofIds (kind : VehicleKind) (ids : List Nat) : (ofIds kind ids).kind = kind :=
  rfl

@[simp] theorem body_ofIds (kind : VehicleKind) (ids : List Nat) :
    (ofIds kind ids).body = ids.filter (· ≠ depotId) := rfl

@[simp] theorem length_stops (route : Route) : route.stops.length = route.size + 2 := by
  simp [stops, size]

theorem body_ofIds_stops (kind : VehicleKind) (route : Route) :
    (ofIds kind route.stops).body = route.body := by
  have served : ∀ id ∈ route.body, id ≠ depotId := fun id member same =>
    route.depotFree (same ▸ member)
  simpa [stops, List.filter_append] using served

/-- Reverses `length` stops from position `start` of the full sequence on. A segment
that meets a depot is refused. -/
def reverse (route : Route) (start length : Nat) : Except Fault Route :=
  if 1 ≤ start ∧ start + length < route.stops.length then
    .ok { route with
      body := Sequence.reverseSegment route.body (start - 1) length
      depotFree := by simpa [Sequence.mem_reverseSegment] using route.depotFree }
  else .error (.overlap start length route.stops.length)

end Route

end TruckDrone
