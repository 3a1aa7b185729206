import TruckDrone.Proofs.Fault
import TruckDrone.Search.Solve

/-! What a search may hold: its first solution, and whatever the moves lead to that were listed for
a solution it held. Tabu search is one that ends with a solution it held, however configured. -/

set_option autoImplicit false

namespace TruckDrone

variable {K : Type}

/-- The solutions that a search may hold, each with the cost at which it is held. -/
inductive Held (neighbors : Solution K → Except Fault (List (Move K))) (first : Solution K) :
    Solution K → K → Prop where
  | start : Held neighbors first first first.cost
  | moved {solution : Solution K} {cost : K} {moves : List (Move K)} {move : Move K}
      (held : Held neighbors first solution cost) (listed : neighbors solution = .ok moves)
      (member : move ∈ moves) : Held neighbors first move.solution move.cost

/-- A search that comes to an end if the moves of all it may hold can be listed, and whose best
is a solution it may hold, at the cost of holding it. -/
structure Search.Lawful (search : Search K) : Prop where
  ends : ∀ neighbors first,
    (∀ solution cost, Held neighbors first solution cost →
        ∃ moves, neighbors solution = .ok moves) →
      ∃ outcome, search neighbors first = .ok outcome
  holds : ∀ neighbors first outcome, search neighbors first = .ok outcome →
    Held neighbors first outcome.best outcome.cost

namespace Tabu

variable {config : Config} {moves : List (Move K)}
  {neighbors : Solution K → Except Fault (List (Move K))} {first : Solution K}

namespace State

structure Holds (neighbors : Solution K → Except Fault (List (Move K))) (first : Solution K)
    (state : State K) : Prop where
  current : ∃ cost, Held neighbors first state.current cost
  best : Held neighbors first state.best state.bestCost

theorem holds_start (neighbors : Solution K → Except Fault (List (Move K))) (first : Solution K) :
    (start first).Holds neighbors first :=
  ⟨⟨first.cost, .start⟩, .start⟩

theorem release_keeps (config : Config) (state : State K) :
    (state.release config).best = state.best ∧
      (state.release config).bestCost = state.bestCost := by
  unfold release
  split
  · split <;> exact ⟨rfl, rfl⟩
  · exact ⟨rfl, rfl⟩

end State

variable [Scalar K]

theorem mem_of_cheapest {move : Move K} (chosen : cheapest moves = some move) : move ∈ moves := by
  have listed : ∀ move ∈ cheapest moves, move ∈ moves := by
    unfold cheapest
    refine List.foldlRecOn (motive := fun chosen => ∀ move ∈ chosen, move ∈ moves) moves _ ?_ ?_
    · simp
    · intro chosen earlier candidate member
      split
      · simpa using member
      · exact earlier
  exact listed move chosen

namespace State

theorem mem_of_choose {state : State K} {move : Move K}
    (chosen : state.choose config moves = some move) : move ∈ moves := by
  rcases Option.or_eq_some_iff.1 chosen with allowed | ⟨-, forbidden⟩
  · exact (List.mem_filter.1 (mem_of_cheapest allowed)).1
  · exact mem_of_cheapest forbidden

theorem current_make (state : State K) (iteration : Nat) (move : Move K) :
    (state.make config iteration move).current = move.solution := by
  unfold make
  dsimp only
  split <;> rfl

theorem best_make (config : Config) (state : State K) (iteration : Nat) (move : Move K) :
    ((state.make config iteration move).best = move.solution ∧
        (state.make config iteration move).bestCost = move.cost) ∨
      ((state.make config iteration move).best = state.best ∧
        (state.make config iteration move).bestCost = state.bestCost) := by
  unfold make
  dsimp only
  split
  · exact .inl ⟨rfl, rfl⟩
  · exact .inr (release_keeps config state)

theorem Holds.step {state : State K} (holds : state.Holds neighbors first)
    (listed : neighbors state.current = .ok moves) (config : Config) (iteration : Nat) :
    (state.step config iteration moves).Holds neighbors first := by
  unfold State.step
  split
  next move chosen =>
    obtain ⟨_, held⟩ := holds.current
    have moved : Held neighbors first move.solution move.cost :=
      .moved held listed (mem_of_choose chosen)
    constructor
    · exact ⟨move.cost, (current_make state iteration move).symm ▸ moved⟩
    · change Held neighbors first (state.make config iteration move).best
        (state.make config iteration move).bestCost
      rcases best_make config state iteration move with ⟨best, cost⟩ | ⟨best, cost⟩
      · rw [best, cost]
        exact moved
      · rw [best, cost]
        exact holds.best
  next => exact ⟨holds.current, holds.best⟩

end State

theorem run_holds {left iteration : Nat} {state final : State K}
    (holds : state.Holds neighbors first)
    (done : run config neighbors left iteration state = .ok final) :
    final.Holds neighbors first := by
  induction left generalizing iteration state with
  | zero =>
    cases done
    exact holds
  | succ left ih =>
    obtain ⟨moves, listed, done⟩ := Fault.bind_eq_ok.1 done
    have further := holds.step listed config iteration
    split at done
    -- Without a move only the cost of the best is recorded.
    · cases done
      exact ⟨holds.current, holds.best⟩
    · dsimp only at done
      split at done
      · cases done
        exact further
      · exact ih further done

theorem run_ends (config : Config) {state : State K} (holds : state.Holds neighbors first)
    (lists : ∀ solution cost, Held neighbors first solution cost →
      ∃ moves, neighbors solution = .ok moves) (left iteration : Nat) :
    ∃ final, run config neighbors left iteration state = .ok final := by
  induction left generalizing iteration state with
  | zero => exact ⟨state, rfl⟩
  | succ left ih =>
    obtain ⟨_, held⟩ := holds.current
    obtain ⟨moves, listed⟩ := lists _ _ held
    have further := holds.step listed config iteration
    rw [run, listed, Fault.ok_bind]
    dsimp only
    split
    · exact ⟨_, rfl⟩
    · split
      · exact ⟨_, rfl⟩
      · exact ih further (iteration + 1)

theorem search_lawful (config : Config) : Search.Lawful (search config : Search K) := by
  constructor
  · intro neighbors first lists
    obtain ⟨final, done⟩ :=
      run_ends config (State.holds_start neighbors first) lists config.maxIterations 0
    unfold search
    rw [done]
    exact ⟨_, rfl⟩
  · intro neighbors first outcome done
    obtain ⟨final, run, packed⟩ := Fault.bind_eq_ok.1 done
    cases packed
    exact (run_holds (State.holds_start neighbors first) run).best

end Tabu

end TruckDrone
