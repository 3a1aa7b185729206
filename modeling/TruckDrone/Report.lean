import TruckDrone.Violation

/-! Summaries of a solution and of the search that found it. -/

set_option autoImplicit false

namespace TruckDrone

structure Report (K : Type) where
  name : String
  trucks : Nat
  drones : Nat
  iterations : Nat
  recency : Nat
  cost : K
  truckPaths : List (List (List Nat))
  dronePaths : List (List (List Nat))
  feasible : Bool
  lastImproved : Nat
  deriving DecidableEq, Repr

namespace Report

variable {K : Type}

def paths (lists : List (List Route)) : List (List (List Nat)) :=
  lists.map fun routes => routes.map Route.stops

def ofSolution (name : String) (problem : Problem K) (solution : Solution K) : Report K where
  name := name
  trucks := problem.trucks
  drones := problem.drones
  iterations := 0
  recency := problem.recency
  cost := solution.cost
  truckPaths := paths solution.plan.trucks
  dronePaths := paths solution.plan.drones
  feasible := problem.isFeasible solution
  lastImproved := 0

def afterSearch (report : Report K) (iterations lastImproved : Nat) : Report K :=
  { report with iterations, lastImproved }

def routeCount (report : Report K) : Nat :=
  (report.truckPaths ++ report.dronePaths).flatten.length

def same [Scalar K] (first second : Report K) : Bool :=
  Scalar.same first.cost second.cost &&
    first.name == second.name && first.trucks == second.trucks &&
    first.drones == second.drones && first.iterations == second.iterations &&
    first.recency == second.recency && first.truckPaths == second.truckPaths &&
    first.dronePaths == second.dronePaths && first.feasible == second.feasible &&
    first.lastImproved == second.lastImproved

end Report

end TruckDrone
