import TruckDrone.Instance
import TruckDrone.Proofs.Bounds.Positions

/-! The price of a plan, every leg and every distance being read at its position. It is never
refused, whatever the routes visit. -/

set_option autoImplicit false

namespace TruckDrone

variable {K : Type}

namespace DistanceTable

variable (table : DistanceTable K)

def find (start finish : Nat) : Except Fault (Option K) :=
  if start < table.size ∧ finish < table.size then some <$> table.get start finish
  else .ok none

theorem find_eq_ok (start finish : Nat) :
    table.find start finish = .ok (table.get? start finish) := by
  unfold find get?
  by_cases inside : start < table.size ∧ finish < table.size
  · rw [if_pos inside, dif_pos inside, get, dif_pos (table.place_lt inside.1 inside.2)]
    rfl
  · rw [if_neg inside, dif_neg inside]

end DistanceTable

namespace Instance

variable [Scalar K] (inst : Instance K)

def routeLengthByPosition (route : Route) : Except Fault K := do
  let pairs ← Sequence.successions route.stops
  let legs ← pairs.mapM fun (start, finish) => do
    return (← inst.distances.find start finish).getD Scalar.infinity
  return Scalar.sum legs

def workingTimeByPosition (kind : VehicleKind) (routes : List Route) : Except Fault K := do
  return Scalar.sum (← routes.mapM inst.routeLengthByPosition) / inst.speed kind

def costByPosition (plan : Plan) : Except Fault K := do
  let trucks ← plan.trucks.mapM (inst.workingTimeByPosition .truck)
  let drones ← plan.drones.mapM (inst.workingTimeByPosition .drone)
  match inst.objective with
  | .makespan => return (trucks ++ drones).foldl Scalar.larger 0
  | .totalTime => return Scalar.sum (trucks ++ drones)

theorem routeLengthByPosition_eq_ok (route : Route) :
    inst.routeLengthByPosition route = .ok (inst.routeLength route) := by
  have someone : route.stops ≠ [] := by simp [Route.stops]
  have reads : ∀ pair ∈ route.stops.zip route.stops.tail,
      (do return (← inst.distances.find pair.1 pair.2).getD Scalar.infinity : Except Fault K) =
        .ok (inst.leg pair.1 pair.2) := by
    intro pair _
    rw [DistanceTable.find_eq_ok]
    rfl
  rw [routeLengthByPosition, Sequence.successions_eq_ok someone, Fault.ok_bind,
    Fault.mapM_eq_map reads, Fault.ok_bind, routeLength, List.zip, List.map_zipWith]
  rfl

theorem workingTimeByPosition_eq_ok (kind : VehicleKind) (routes : List Route) :
    inst.workingTimeByPosition kind routes = .ok (inst.workingTime kind routes) := by
  rw [workingTimeByPosition,
    Fault.mapM_eq_map fun route _ => inst.routeLengthByPosition_eq_ok route]
  rfl

theorem costByPosition_eq_ok (plan : Plan) :
    inst.costByPosition plan = .ok (inst.cost plan) := by
  rw [costByPosition,
    Fault.mapM_eq_map fun routes _ => inst.workingTimeByPosition_eq_ok .truck routes,
    Fault.ok_bind, Fault.mapM_eq_map fun routes _ => inst.workingTimeByPosition_eq_ok .drone routes,
    Fault.ok_bind, cost]
  cases inst.objective <;> rfl

end Instance

end TruckDrone
