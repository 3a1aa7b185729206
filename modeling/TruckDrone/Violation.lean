import TruckDrone.Problem

/-! Defects of a solution: what keeps it from serving every customer exactly once,
with the vehicles at hand and within what drones may carry. -/

set_option autoImplicit false

namespace TruckDrone

inductive Violation where
  | missingCustomer (id : Nat)
  /-- The customer was visited before. -/
  | duplicateCustomer (id : Nat) (slot : Slot)
  | unknownCustomer (id : Nat) (slot : Slot)
  | nonDronable (id drone position : Nat)
  | emptyRoute (slot : Slot)
  | kindMismatch (slot : Slot)
  /-- The plan has more or fewer route lists than there are vehicles of the kind. -/
  | fleetMismatch (kind : VehicleKind) (expected actual : Nat)
  deriving DecidableEq, Repr

namespace Violation

variable {K : Type} (problem : Problem K)

def listDefects (kind : VehicleKind) (expected actual : Nat) : List Violation :=
  if expected ≠ actual then [.fleetMismatch kind expected actual] else []

def routeDefects (slot : Slot) (route : Route) : List Violation :=
  (if route.kind ≠ slot.vehicle.kind then [.kindMismatch slot] else []) ++
    (if route.isEmpty then [.emptyRoute slot] else [])

def visitDefects (slot : Slot) (earlier : List Nat) (id : Nat) : List Violation :=
  match problem.customers[id]? with
  | none => [.unknownCustomer id slot]
  | some customer =>
    (if id ∈ earlier then [.duplicateCustomer id slot] else []) ++
      match slot.vehicle with
      | .truck _ => []
      | .drone drone => if customer.dronable then [] else [.nonDronable id drone slot.position]

def bodyDefects (slot : Slot) : List Nat → List Nat → List Violation
  | _, [] => []
  | earlier, id :: rest =>
    visitDefects problem slot earlier id ++ bodyDefects slot (earlier ++ [id]) rest

def scan : List Nat → List (Slot × Route) → List Violation
  | _, [] => []
  | earlier, (slot, route) :: rest =>
    routeDefects slot route ++ bodyDefects problem slot earlier route.body ++
      scan (earlier ++ route.body) rest

def held (plan : Plan) : List (Slot × Route) := problem.fleet.flatMap plan.slots

def unserved (visited : List Nat) : List Nat :=
  (Sequence.span 1 problem.size).filter (· ∉ visited)

end Violation

namespace Problem

variable {K : Type} (problem : Problem K) (solution : Solution K)

open Violation in
/-- Every defect of a solution: the fleet's first, then those met along the routes of
the fleet in unified order, then the customers left unserved. -/
def violations : List Violation :=
  let plan := solution.plan
  let routes := held problem plan
  listDefects .truck problem.trucks plan.trucks.length ++
    listDefects .drone problem.drones plan.drones.length ++
    scan problem [] routes ++
    (unserved problem (routes.flatMap (·.2.body))).map .missingCustomer

def isFeasible : Bool := (problem.violations solution).isEmpty

end Problem

end TruckDrone
