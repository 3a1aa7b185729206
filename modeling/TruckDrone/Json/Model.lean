import TruckDrone.Instance
import TruckDrone.Json.Document
import TruckDrone.Json.Record
import TruckDrone.Neighborhood.Edge

/-! The JSON forms of customers, vehicles, routes, edges and objectives. -/

set_option autoImplicit false

namespace TruckDrone

open Json Json.Reader

namespace VehicleKind

def name : VehicleKind → String
  | .truck => "Truck"
  | .drone => "Drone"

def ofName? (name : String) : Option VehicleKind :=
  if name = "Truck" then some .truck else if name = "Drone" then some .drone else none

theorem ofName?_name (kind : VehicleKind) : ofName? kind.name = some kind := by
  cases kind <;> rfl

def toDocument (kind : VehicleKind) : Document := .text kind.name

def reader : Reader VehicleKind := variant fun name => (ofName? name).map .unit

end VehicleKind

namespace Objective

def name : Objective → String
  | .makespan => "Makespan"
  | .totalTime => "TotalTime"

def ofName? (name : String) : Option Objective :=
  if name = "Makespan" then some .makespan
  else if name = "TotalTime" then some .totalTime else none

def toDocument (objective : Objective) : Document := .text objective.name

def reader : Reader Objective := variant fun name => (ofName? name).map .unit

end Objective

namespace Vehicle

def ofKind : VehicleKind → Nat → Vehicle
  | .truck => .truck
  | .drone => .drone

def toDocument (vehicle : Vehicle) : Document :=
  .record [(vehicle.kind.name, .natural vehicle.index)]

/-- A vehicle is written as its kind with its index, so a bare kind is none. -/
def reader : Reader Vehicle := variant fun name =>
  (VehicleKind.ofName? name).map fun kind => ⟨none, ofKind kind <$> natural⟩

end Vehicle

namespace Edge

def toDocument (edge : Edge) : Document := .list [.natural edge.first, .natural edge.second]

structure Draft where
  first : Option Nat := none
  second : Option Nat := none

def fields : List (RecordField Draft) := [
  .into "first" natural Draft.first fun draft id => { draft with first := some id },
  .into "second" natural Draft.second fun draft id => { draft with second := some id }]

def reader : Reader Edge := do
  match ← look with
  | some '[' => tuple fields {} fun draft => return ⟨← draft.first, ← draft.second⟩
  | _ => otherType

end Edge

namespace Customer

def toDocument (customer : Customer Binary64) : Document := .record [
  ("id", .natural customer.id),
  ("x", .float customer.x),
  ("y", .float customer.y),
  ("dronable", .flag customer.dronable)]

structure Draft where
  id : Option Nat := none
  x : Option Binary64 := none
  y : Option Binary64 := none
  dronable : Option Bool := none

def fields : List (RecordField Draft) := [
  .into "id" natural Draft.id fun draft id => { draft with id := some id },
  .into "x" float Draft.x fun draft x => { draft with x := some x },
  .into "y" float Draft.y fun draft y => { draft with y := some y },
  .into "dronable" flag Draft.dronable fun draft flag => { draft with dronable := some flag }]

def reader : Reader (Customer Binary64) :=
  record fields {} fun draft =>
    return ⟨← draft.id, ← draft.x, ← draft.y, ← draft.dronable⟩

end Customer

namespace Route

def toDocument (route : Route) : Document := .record [
  ("kind", route.kind.toDocument),
  ("customers", .list (route.stops.map .natural))]

structure Draft where
  kind : Option VehicleKind := none
  stops : Option (List Nat) := none

def fields : List (RecordField Draft) := [
  .into "kind" VehicleKind.reader Draft.kind fun draft kind => { draft with kind := some kind },
  .into "customers" (list natural) Draft.stops fun draft stops =>
    { draft with stops := some stops }]

/-- The route through the given stops, which have to start and end at the depot, at two
entries. Depots between them are dropped. -/
def ofStops? (kind : VehicleKind) (stops : List Nat) : Option Route :=
  if 2 ≤ stops.length ∧ stops.head? = some depotId ∧ stops.getLast? = some depotId then
    some (ofIds kind stops)
  else none

def reader : Reader Route := do
  let (kind, stops) ← record fields {} fun draft => return (← draft.kind, ← draft.stops)
  match ofStops? kind stops with
  | some route => return route
  | none => refuse (.unbounded stops)

end Route

end TruckDrone
