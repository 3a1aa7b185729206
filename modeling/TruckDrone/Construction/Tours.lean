import TruckDrone.Problem

/-! What the constructions share: which problems can be served at all, which vehicles
may serve a customer, and solutions with at most one route for each vehicle. -/

set_option autoImplicit false

namespace TruckDrone

namespace Problem

variable {K : Type} (problem : Problem K)

def servable : Bool :=
  0 < problem.trucks || (0 < problem.drones && problem.customers.tail.all Customer.dronable)

def carriers (id : Nat) : Except Fault (List Vehicle) := do
  let dronable ← problem.dronable id
  return problem.fleet.filter fun vehicle => dronable || !vehicle.isDrone

def customerIds : List Nat := Sequence.span 1 problem.size

end Problem

abbrev Tours := List (Vehicle × List Nat)

namespace Tours

variable {K : Type} (problem : Problem K)

def idle : Tours := problem.fleet.map (·, [])

def extend (tours : Tours) (position id : Nat) : Except Fault Tours := do
  let (vehicle, ids) ← Sequence.entry tours position
  Sequence.replaceAt tours position (vehicle, ids ++ [id])

def toPlan (tours : Tours) : Except Fault Plan :=
  tours.foldlM (fun plan (vehicle, ids) =>
      if ids.isEmpty then .ok plan else plan.append vehicle (.ofIds vehicle.kind ids))
    (Plan.empty problem.trucks problem.drones)

def toSolution (tours : Tours) : Except Fault (Solution K) :=
  (toPlan problem tours).map problem.assess

end Tours

end TruckDrone
