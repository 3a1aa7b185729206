import TruckDrone.Construction.RandomDeal
import TruckDrone.Random.Generator
import TruckDrone.Report
import TruckDrone.Search.Tabu

/-! Solving a problem: tabu search from a random solution. -/

set_option autoImplicit false

namespace TruckDrone

structure Outcome (K : Type) where
  best : Solution K
  cost : K
  iterations : Nat
  bestIteration : Nat
  history : List K

/-- A way to search: from a first solution, by moves to neighbors, to the best that was met. -/
abbrev Search (K : Type) :=
  (Solution K → Except Fault (List (Move K))) → Solution K → Except Fault (Outcome K)

namespace Tabu

variable {K : Type}

def Config.ofProblem (problem : Problem K) : Config := { tenure := problem.recency }

def defaultSeed : UInt64 := 42

def initial {σ : Type} [RandomSource σ] (problem : Problem K) (source : σ) :
    Except Fault (Solution K) := do
  let (solution, _) ← RandomDeal.construct problem source
  return solution.getD (problem.assess (.empty problem.trucks problem.drones))

def search [Scalar K] (config : Config) : Search K := fun neighbors first => do
  let final ← run config neighbors config.maxIterations 0 (start first)
  return {
    best := final.best
    cost := final.bestCost
    iterations := final.history.length
    bestIteration := final.bestIteration
    history := final.history }

end Tabu

def solveBy {K σ : Type} [Scalar K] [RandomSource σ] (search : Search K) (problem : Problem K)
    (source : σ) : Except Fault (Option (Outcome K)) :=
  if problem.servable then do
    let first ← Tabu.initial problem source
    some <$> search (Move.neighbors problem) first
  else .ok none

def solve {K : Type} [Scalar K] (problem : Problem K) (config : Tabu.Config) :
    Except Fault (Option (Outcome K)) :=
  solveBy (Tabu.search config) problem
    (Generator.ofSeed (config.seed.getD Tabu.defaultSeed))

def Outcome.report {K : Type} (outcome : Outcome K) (name : String) (problem : Problem K) :
    Report K :=
  (Report.ofSolution name problem outcome.best).afterSearch outcome.iterations
    outcome.bestIteration

end TruckDrone
