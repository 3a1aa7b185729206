import TruckDrone.Search.Move

/-! Tabu search: from each solution on to the cheapest neighbor whose key was not used
lately, keeping the best solution met. -/

set_option autoImplicit false

namespace TruckDrone.Tabu

structure Config where
  maxIterations : Nat := 500
  tenure : Nat := 7
  /-- The search stops after this many iterations without a new best. -/
  maxIdle : Nat := 200
  /-- Whether a forbidden move is allowed where it leads to a new best. -/
  aspiration : Bool := true
  seed : Option UInt64 := none
  deriving DecidableEq, Repr

structure State (K : Type) where
  best : Solution K
  bestCost : K
  bestIteration : Nat
  current : Solution K
  -- Keys in the order of their use. A key may occur twice.
  queue : List String
  -- A key is free again as soon as one of its uses leaves the queue.
  forbidden : List String
  idle : Nat
  -- The best cost after each iteration.
  history : List K

variable {K : Type} [Scalar K]

def start (initial : Solution K) : State K where
  best := initial
  bestCost := initial.cost
  bestIteration := 0
  current := initial
  queue := []
  forbidden := []
  idle := 0
  history := []

/-- The first of the cheapest moves, if any costs less than infinity. -/
def cheapest (moves : List (Move K)) : Option (Move K) :=
  moves.foldl (fun chosen move =>
    if Scalar.less move.cost ((chosen.map Move.cost).getD Scalar.infinity) then some move
    else chosen) none

namespace State

def allows (state : State K) (config : Config) (move : Move K) : Bool :=
  !(move.key ∈ state.forbidden) || (config.aspiration && Scalar.less move.cost state.bestCost)

/-- The cheapest move allowed, or the cheapest of all if none allowed can be chosen. -/
def choose (state : State K) (config : Config) (moves : List (Move K)) : Option (Move K) :=
  (cheapest (moves.filter (state.allows config))).or (cheapest moves)

def release (state : State K) (config : Config) : State K :=
  if config.tenure ≤ state.queue.length then
    match state.queue with
    | [] => state
    | oldest :: queue =>
      { state with queue, forbidden := state.forbidden.filter (· ≠ oldest) }
  else state

def make (state : State K) (config : Config) (iteration : Nat) (move : Move K) : State K :=
  -- The oldest key goes before the new one is counted.
  let state := state.release config
  let state := { state with
    queue := state.queue ++ [move.key]
    forbidden := move.key :: state.forbidden
    current := move.solution }
  if Scalar.less move.cost state.bestCost then
    { state with
      best := move.solution, bestCost := move.cost, bestIteration := iteration, idle := 0 }
  else { state with idle := state.idle + 1 }

def record (state : State K) : State K :=
  { state with history := state.history ++ [state.bestCost] }

def step (state : State K) (config : Config) (iteration : Nat) (moves : List (Move K)) : State K :=
  match state.choose config moves with
  | some move => (state.make config iteration move).record
  | none => { state with idle := state.idle + 1 }.record

end State

/-- Iterates as often as is left, until there is no move or there were too many
iterations without a new best. -/
def run (config : Config) (neighbors : Solution K → Except Fault (List (Move K))) :
    (left iteration : Nat) → State K → Except Fault (State K)
  | 0, _, state => .ok state
  | left + 1, iteration, state => do
    let moves ← neighbors state.current
    if moves.isEmpty then return state.record
    let state := state.step config iteration moves
    if config.maxIdle ≤ state.idle then return state
    run config neighbors left (iteration + 1) state

end TruckDrone.Tabu
