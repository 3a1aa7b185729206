import TruckDrone.Neighborhood.Exploration
import TruckDrone.Neighborhood.RecencyList

/-! Two-opt moves: reversing a segment of one route, and exchanging the tails of two
routes of different vehicles. -/

set_option autoImplicit false

namespace TruckDrone.TwoOpt

open Sequence Sweep

variable {K : Type}

/-- Every reversal of customers `i` to `j` of a route, with the edge from the stop
before `i` to customer `j`. -/
def reversals (problem : Problem K) (solution : Solution K) : Sweep (Offer K) := do
  let vehicle ← each problem.fleet
  let (slot, route) ← each (solution.plan.slots vehicle)
  let stops := route.stops
  let i ← each (span 1 (stops.length - 1))
  let j ← each (span (i + 1) (stops.length - 1))
  let reversed ← lift (route.reverse i (j - i + 1))
  let plan ← lift (solution.plan.put slot reversed)
  let before ← lift (entry stops (i - 1))
  let last ← lift (entry stops j)
  return ⟨problem.assess plan, .between before last⟩

def splice (head : List Nat) (i : Nat) (tail : List Nat) (j : Nat) : Except Fault (List Nat) :=
  return (← upTo head i) ++ (← beyond tail j)

/-- Every exchange of the tails beyond customers `i` and `j` of two occupied slots that
both vehicles admit, with the edge between those two customers. -/
def exchanges (problem : Problem K) (plan : Plan) (first second : Slot × Route) :
    Sweep (Offer K) := do
  let (firstSlot, firstRoute) := first
  let (secondSlot, secondRoute) := second
  let a := firstRoute.stops
  let b := secondRoute.stops
  let i ← each (span 1 (a.length - 2))
  let j ← each (span 1 (b.length - 2))
  let firstStops ← lift (splice a i b j)
  let secondStops ← lift (splice b j a i)
  keepIf (← lift (problem.admitsAll firstSlot.vehicle firstStops))
  keepIf (← lift (problem.admitsAll secondSlot.vehicle secondStops))
  let half ← lift (plan.assign firstSlot firstStops)
  let whole ← lift (half.assign secondSlot secondStops)
  let left ← lift (entry a i)
  let right ← lift (entry b j)
  return ⟨problem.assess whole, .between left right⟩

def vehiclePairs : List Vehicle → List (Vehicle × Vehicle)
  | [] => []
  | vehicle :: later => later.map (vehicle, ·) ++ vehiclePairs later

def tailExchanges (problem : Problem K) (solution : Solution K) : Sweep (Offer K) := do
  let (u, v) ← each (vehiclePairs problem.fleet)
  let first ← each (solution.plan.slots u)
  let second ← each (solution.plan.slots v)
  exchanges problem solution.plan first second

def neighborhood : Neighborhood K where
  label := "Two-opt"
  withinRoute := reversals
  betweenRoutes := tailExchanges

def start (problem : Problem K) : RecencyList := .empty problem.recency

def advance [Scalar K] (problem : Problem K) (recent : RecencyList) (solution : Solution K)
    (aspiration : Aspiration K) : Except Fault (Option (Solution K)) × RecencyList :=
  match neighborhood.best problem solution aspiration with
  | .error fault => (.error fault, recent)
  -- The edge is touched also when there was no candidate and it is trivial.
  | .ok outcome => (.ok outcome.solution, recent.touch outcome.edge)

end TruckDrone.TwoOpt
