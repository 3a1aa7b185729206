import TruckDrone.Distance
import TruckDrone.Problem

/-! Problem instances whose price is travel time, and the rules for building one. -/

set_option autoImplicit false

namespace TruckDrone

inductive Objective where
  | makespan
  | totalTime
  deriving DecidableEq, Repr

/-- Locations, fleet, distances and speeds. `ofCustomers?` and `change?` keep what the
search relies on; the type itself does not enforce it. -/
structure Instance (K : Type) where
  customers : List (Customer K)
  distances : DistanceTable K
  trucks : Nat
  drones : Nat
  recency : Nat
  truckSpeed : K
  droneSpeed : K
  objective : Objective

inductive Instance.Change (K : Type) where
  | recency (capacity : Nat)
  | speed (kind : VehicleKind) (speed : K)
  | objective (objective : Objective)
  | distances (table : DistanceTable K)

namespace Instance

variable {K : Type} [Scalar K]

def defaultRecency : Nat := 10

/-- The instance over the given locations, or none if the first is not a depot that no
drone serves, an id differs from its position, there is no vehicle, or some customer needs
a truck and there is none. -/
def ofCustomers? (customers : List (Customer K)) (trucks drones : Nat) : Option (Instance K) :=
  match customers with
  | [] => none
  | depot :: others =>
    if depot.id ≠ depotId ∨ depot.dronable then none
    else if customers.zipIdx.any fun (customer, position) => customer.id != position then none
    else if trucks + drones = 0 then none
    else if trucks = 0 ∧ others.any fun customer => !customer.dronable then none
    else some {
      customers, trucks, drones
      distances := .ofCustomers customers
      recency := defaultRecency
      truckSpeed := 1
      droneSpeed := 1
      objective := .makespan }

variable (inst : Instance K)

/-- Sets the speed of the vehicles of one kind, which has to be finite and positive; any
other is ignored. -/
def setSpeed (kind : VehicleKind) (speed : K) : Instance K :=
  if Scalar.isFinite speed && Scalar.less 0 speed then
    match kind with
    | .truck => { inst with truckSpeed := speed }
    | .drone => { inst with droneSpeed := speed }
  else inst

/-- The instance after a change. Distances have to cover just the locations; a table of
another size is refused. -/
def change? : Change K → Option (Instance K)
  | .recency capacity => some { inst with recency := capacity }
  | .speed kind speed => some (inst.setSpeed kind speed)
  | .objective objective => some { inst with objective }
  | .distances table =>
    if table.size = inst.customers.length then some { inst with distances := table } else none

/-- Distance of one leg, infinite if an end lies outside the table. -/
def leg (start finish : Nat) : K := (inst.distances.get? start finish).getD Scalar.infinity

def routeLength (route : Route) : K :=
  Scalar.sum (List.zipWith inst.leg route.stops route.stops.tail)

def speed : VehicleKind → K
  | .truck => inst.truckSpeed
  | .drone => inst.droneSpeed

def workingTime (kind : VehicleKind) (routes : List Route) : K :=
  Scalar.sum (routes.map inst.routeLength) / inst.speed kind

def workingTimes (plan : Plan) : List K :=
  plan.trucks.map (inst.workingTime .truck) ++ plan.drones.map (inst.workingTime .drone)

def cost (plan : Plan) : K :=
  match inst.objective with
  | .makespan => (inst.workingTimes plan).foldl Scalar.larger 0
  | .totalTime => Scalar.sum (inst.workingTimes plan)

def toProblem : Problem K where
  customers := inst.customers
  trucks := inst.trucks
  drones := inst.drones
  recency := inst.recency
  price := inst.cost

end Instance

end TruckDrone
