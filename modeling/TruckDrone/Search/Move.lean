import TruckDrone.Neighborhood.EjectionChain
import TruckDrone.Neighborhood.TwoOpt

/-! The moves offered to the search: the best of each exploration, under a key by which
the search recognises a move it has made. -/

set_option autoImplicit false

namespace TruckDrone

def wordsOf {α : Type} (words : α → List Nat) (items : List α) : List Nat :=
  items.length :: items.flatMap words

def Route.words (route : Route) : List Nat :=
  (if route.kind = .truck then 0 else 1) :: wordsOf (fun id => [id]) route.stops

def Plan.words (plan : Plan) : List Nat :=
  wordsOf (wordsOf Route.words) plan.trucks ++ wordsOf (wordsOf Route.words) plan.drones

def dotted (words : List Nat) : String :=
  .ofList (words.flatMap fun word => Decimal.digits word ++ ['.'])

/-- The plan as text; different plans have different texts. -/
def Plan.fingerprint (plan : Plan) : String := dotted plan.words

structure Move (K : Type) where
  key : String
  solution : Solution K
  cost : K

namespace Move

variable {K : Type}

/-- A move is known by its edge, or by the plan it leads to if the edge is trivial. -/
def keyOf (label : String) (edge : Edge) (solution : Solution K) : String :=
  if edge.isTrivial then label ++ "#" ++ solution.plan.fingerprint
  else label ++ ":" ++ edge.text

def ofExploration? (label : String) (outcome : Exploration K) : Option (Move K) :=
  outcome.solution.map fun solution =>
    ⟨keyOf label outcome.edge solution, solution, solution.cost⟩

variable [Scalar K]

def sweeps (problem : Problem K) (solution : Solution K) : List (String × Sweep (Offer K)) :=
  [("2opt", TwoOpt.reversals problem solution),
    ("2opt*", TwoOpt.tailExchanges problem solution),
    ("ejection", EjectionChain.relocations problem solution)]

/-- The best moves of the three explorations, where there are any. Nothing aspires here;
that is for the search to decide. -/
def neighbors (problem : Problem K) (solution : Solution K) : Except Fault (List (Move K)) := do
  let outcomes ← (sweeps problem solution).mapM fun (label, sweep) => do
    let outcome ← sweep.explore (fun _ _ => false) 0
    return ofExploration? label outcome
  return outcomes.filterMap id

end Move

end TruckDrone
