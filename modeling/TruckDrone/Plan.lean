import TruckDrone.Route

/-! Plans: the routes of every vehicle, and the placing of one route in them. -/

set_option autoImplicit false

namespace TruckDrone

structure Plan where
  trucks : List (List Route)
  drones : List (List Route)
  deriving DecidableEq, Repr

structure Slot where
  vehicle : Vehicle
  position : Nat
  deriving DecidableEq, Repr

namespace Plan

def empty (trucks drones : Nat) : Plan := ⟨List.replicate trucks [], List.replicate drones []⟩

def lists (plan : Plan) : VehicleKind → List (List Route)
  | .truck => plan.trucks
  | .drone => plan.drones

def routes (plan : Plan) (vehicle : Vehicle) : List Route :=
  ((plan.lists vehicle.kind)[vehicle.index]?).getD []

def slots (plan : Plan) (vehicle : Vehicle) : List (Slot × Route) :=
  (plan.routes vehicle).zipIdx.map fun (route, position) => (⟨vehicle, position⟩, route)

def allRoutes (plan : Plan) : List Route := (plan.trucks ++ plan.drones).flatten

def routeCount (plan : Plan) : Nat := plan.allRoutes.length

def servedCount (plan : Plan) : Nat := (plan.allRoutes.flatMap Route.body).length

def revise (plan : Plan) (vehicle : Vehicle)
    (change : List Route → Except Fault (List Route)) : Except Fault Plan :=
  match vehicle with
  | .truck i => do
    let routes ← Sequence.entry plan.trucks i
    let trucks ← Sequence.replaceAt plan.trucks i (← change routes)
    return { plan with trucks }
  | .drone i => do
    let routes ← Sequence.entry plan.drones i
    let drones ← Sequence.replaceAt plan.drones i (← change routes)
    return { plan with drones }

def put (plan : Plan) (slot : Slot) (route : Route) : Except Fault Plan :=
  plan.revise slot.vehicle fun routes => Sequence.replaceAt routes slot.position route

def assign (plan : Plan) (slot : Slot) (ids : List Nat) : Except Fault Plan :=
  let route := Route.ofIds slot.vehicle.kind ids
  plan.revise slot.vehicle fun routes =>
    -- A trip that serves no one is dropped together with its slot.
    if route.isEmpty then Sequence.eraseAt routes slot.position
    else Sequence.replaceAt routes slot.position route

def append (plan : Plan) (vehicle : Vehicle) (route : Route) : Except Fault Plan :=
  plan.revise vehicle fun routes => .ok (routes ++ [route])

end Plan

end TruckDrone
