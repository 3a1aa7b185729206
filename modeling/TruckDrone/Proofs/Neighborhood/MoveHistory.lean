import TruckDrone.Proofs.Neighborhood.Recency
import TruckDrone.Proofs.Neighborhood.Reversal
import TruckDrone.Proofs.Neighborhood.TailExchange

/-! What the two-opt operator answers and remembers, whatever it was asked before. Its recency list
keeps the edges of the moves made since it was last reset, and no answer depends on the list. -/

set_option autoImplicit false

namespace TruckDrone.TwoOpt

open Exploration Sequence

variable {K : Type}

inductive Request (K : Type) where
  | move (solution : Solution K) (aspiration : Aspiration K)
  | reset

def Request.call? : Request K → Option (Solution K × Aspiration K)
  | .move solution aspiration => some (solution, aspiration)
  | .reset => none

variable [Scalar K] (problem : Problem K)

def serve (recent : RecencyList) : Request K → RecencyList
  | .move solution aspiration => (advance problem recent solution aspiration).2
  | .reset => recent.clear

def after (requests : List (Request K)) : RecencyList :=
  requests.foldl (serve problem) (start problem)

def succeeds (call : Solution K × Aspiration K) : Bool :=
  (advance problem (start problem) call.1 call.2).1.isOk

def completed (requests : List (Request K)) : List (Solution K × Aspiration K) :=
  ((requests.rtakeWhile (·.call?.isSome)).filterMap Request.call?).filter (succeeds problem)

/-- What a call may come to: the outcome of its two explorations, the better of which brings both
the candidate and the edge. -/
def Finds (call : Solution K × Aspiration K) (outcome : Exploration K) : Prop :=
  Selects call.2 (reversals problem call.1).items (tailExchanges problem call.1).items outcome

/-- The list has the edges under which a new operator would find the answers to the calls, each
edge at the place of its last use, and of those the latest up to the capacity. -/
def Remembers (calls : List (Solution K × Aspiration K)) (recent : RecencyList) : Prop :=
  recent.capacity = problem.recency ∧ ∃ edges : List Edge,
    List.Forall₂ (fun call edge => ∃ answer, Finds problem call ⟨answer, edge⟩ ∧
      (advance problem (start problem) call.1 call.2).1 = .ok answer) calls edges ∧
    recent.entries = edges.dedup.rtake problem.recency

variable {problem} {recent : RecencyList} {requests : List (Request K)}
  {calls : List (Solution K × Aspiration K)}

/-! One move. -/

/-- Reversals are never refused, so it is with the exchanges that a move fails. -/
theorem best_eq (problem : Problem K) (solution : Solution K) (aspiration : Aspiration K) :
    neighborhood.best problem solution aspiration = (do
      let within := (reversals problem solution).items
      let second ← (tailExchanges problem solution).explore aspiration within.length
      return cheaper (scan aspiration 0 within) second) := by
  have clean := (Reversal.lists_all problem solution).clean trivial
  unfold Neighborhood.best neighborhood
  dsimp only
  rw [Sweep.explore_of_clean clean, Fault.ok_bind]

/-- A move fails with the fault of the exchanges and touches nothing, or there is no fault, and it
has an outcome and touches its edge. The outcome is the same for every list. -/
theorem advance_cases (problem : Problem K) (solution : Solution K) (aspiration : Aspiration K) :
    (∃ fault, (tailExchanges problem solution).fault = some fault ∧
        ∀ recent, advance problem recent solution aspiration = (.error fault, recent)) ∨
      (tailExchanges problem solution).fault = none ∧
        ∃ outcome, Finds problem (solution, aspiration) outcome ∧
          ∀ recent, advance problem recent solution aspiration =
            (.ok outcome.solution, recent.touch outcome.edge) := by
  cases refused : (tailExchanges problem solution).fault with
  | some fault =>
    refine .inl ⟨fault, rfl, fun recent => ?_⟩
    rw [advance, best_eq]
    dsimp only
    rw [Sweep.explore_of_cut refused]
    rfl
  | none =>
    refine .inr ⟨rfl, _, selects_cheaper aspiration (reversals problem solution).items
      (tailExchanges problem solution).items, fun recent => ?_⟩
    rw [advance, best_eq]
    dsimp only
    rw [Sweep.explore_of_clean refused]
    rfl

theorem Finds.edge_eq_trivial {call : Solution K × Aspiration K} {outcome : Exploration K}
    (finds : Finds problem call outcome) :
    outcome.edge = .trivial ↔
      (reversals problem call.1).items = [] ∧ (tailExchanges problem call.1).items = [] := by
  constructor
  · intro trivial
    cases finds with
    | within settles best =>
      obtain ⟨move, inAll, yields⟩ :=
        (Reversal.lists_all problem call.1).exists_of_mem settles.mem
      exact absurd trivial (yields.edge_ne_trivial (Reversal.mem_all.1 inAll))
    | between settles best =>
      obtain ⟨move, -, yields⟩ :=
        (TailExchange.lists_all problem call.1).exists_of_mem settles.mem
      exact absurd trivial yields.edge_ne_trivial
    | nothing noneWithin noneBetween => exact ⟨noneWithin, noneBetween⟩
  · rintro ⟨noneWithin, noneBetween⟩
    cases finds with
    | within settles best => exact absurd noneWithin settles.ne_nil
    | between settles best => exact absurd noneBetween settles.ne_nil
    | nothing => rfl

/-! Any number of requests. -/

theorem after_append (requests : List (Request K)) (last : Request K) :
    after problem (requests ++ [last]) = serve problem (after problem requests) last := by
  simp [after]

theorem completed_append_move (requests : List (Request K)) (solution : Solution K)
    (aspiration : Aspiration K) :
    completed problem (requests ++ [.move solution aspiration]) =
      completed problem requests ++
        if succeeds problem (solution, aspiration) then [(solution, aspiration)] else [] := by
  simp [completed, Request.call?, List.filter_cons]

theorem completed_append_reset (requests : List (Request K)) :
    completed problem (requests ++ [.reset]) = [] := by
  simp [completed, Request.call?]

theorem Remembers.touch {solution : Solution K} {aspiration : Aspiration K}
    {outcome : Exploration K} (remembers : Remembers problem calls recent)
    (finds : Finds problem (solution, aspiration) outcome)
    (answered : (advance problem (start problem) solution aspiration).1 = .ok outcome.solution) :
    Remembers problem (calls ++ [(solution, aspiration)]) (recent.touch outcome.edge) := by
  obtain ⟨capacity, edges, found, entries⟩ := remembers
  refine ⟨(RecencyList.capacity_touch ..).trans capacity, edges ++ [outcome.edge], ?_, ?_⟩
  · exact List.rel_append found (.cons ⟨outcome.solution, finds, answered⟩ .nil)
  · rw [← capacity] at entries
    rw [dedup_append_singleton, RecencyList.entries_touch (List.nodup_dedup _) entries, capacity]

theorem remembers_serve (request : Request K)
    (remembers : Remembers problem (completed problem requests) recent) :
    Remembers problem (completed problem (requests ++ [request]))
      (serve problem recent request) := by
  cases request with
  | move solution aspiration =>
    rw [completed_append_move, serve]
    rcases advance_cases problem solution aspiration with
      ⟨fault, -, fails⟩ | ⟨-, outcome, finds, passes⟩
    · simpa [succeeds, fails, Except.isOk, Except.toBool] using remembers
    · have answered := congrArg Prod.fst (passes (start problem))
      rw [passes, succeeds, answered]
      exact remembers.touch finds answered
  | reset =>
    rw [completed_append_reset]
    exact ⟨remembers.1, [], .nil, by simp [serve, RecencyList.clear]⟩

theorem remembers_after (problem : Problem K) (requests : List (Request K)) :
    Remembers problem (completed problem requests) (after problem requests) := by
  induction requests using List.reverseRecOn with
  | nil => exact ⟨rfl, [], .nil, by simp [after, start, RecencyList.empty]⟩
  | append_singleton requests last ih =>
    rw [after_append]
    exact remembers_serve last ih

/-- After any requests the list remembers the completed calls since the last reset. Whatever it
remembers, a move is answered as a new operator would answer it. It fails just if the exchanges of
the solution have a fault, with that fault and leaving the list alone, so never where all ids are
known. There is one outcome at most for a call to find, under the trivial edge just if there is no
offer at all. -/
theorem advance_remembers (problem : Problem K) (requests : List (Request K)) :
    let recent := after problem requests
    Remembers problem (completed problem requests) recent ∧
      (∀ solution aspiration,
        (advance problem recent solution aspiration).1 =
            (advance problem (start problem) solution aspiration).1 ∧
          ((∃ fault, (tailExchanges problem solution).fault = some fault ∧
              advance problem recent solution aspiration = (.error fault, recent)) ∨
            (tailExchanges problem solution).fault = none ∧
              ∃ outcome, Finds problem (solution, aspiration) outcome ∧
                advance problem recent solution aspiration =
                  (.ok outcome.solution, recent.touch outcome.edge)) ∧
          (problem.Knows solution.plan → (tailExchanges problem solution).fault = none)) ∧
      ∀ call outcome, Finds problem call outcome →
        (∀ other, Finds problem call other → other = outcome) ∧
          (outcome.edge = .trivial ↔ (reversals problem call.1).items = [] ∧
            (tailExchanges problem call.1).items = []) := by
  refine ⟨remembers_after problem requests, fun solution aspiration => ?_,
    fun call outcome finds => ⟨fun _ => finds.unique, finds.edge_eq_trivial⟩⟩
  have clean := (TailExchange.lists_all problem solution).clean
  rcases advance_cases problem solution aspiration with
    ⟨fault, refused, fails⟩ | ⟨allowed, outcome, finds, passes⟩
  · exact ⟨by rw [fails, fails], .inl ⟨fault, refused, fails _⟩, clean⟩
  · exact ⟨by rw [passes, passes], .inr ⟨allowed, outcome, finds, passes _⟩, clean⟩

/-- The drone's customer 9 is in no table, so the second move fails and the first one stays the
last that is remembered. -/
theorem advance_remembers_failed_move :
    let problem : Problem Binary64 :=
      ⟨[.depot 0 0, ⟨1, 0, 1, false⟩, ⟨2, 1, 0, true⟩], 1, 1, 1, fun _ => 0⟩
    let pair := problem.assess ⟨[[.truck [1, 2]]], [[]]⟩
    let unknown := problem.assess ⟨[[.truck [1, 2]]], [[.drone [9, 9]]]⟩
    let never : Aspiration Binary64 := fun _ _ => false
    let recent := after problem [.move pair never, .move unknown never]
    Remembers problem [(pair, never)] recent ∧ recent.entries = [.between 0 2] ∧
      advance problem recent unknown never = (.error (.outOfRange 9 3), recent) := by
  intro problem pair unknown never recent
  obtain ⟨remembers, moves, -⟩ :=
    advance_remembers problem [.move pair never, .move unknown never]
  have answered : succeeds problem (pair, never) = true := by decide +kernel
  have failed : succeeds problem (unknown, never) = false := by decide +kernel
  have calls : completed problem [.move pair never, .move unknown never] = [(pair, never)] := by
    simp [completed, List.rtakeWhile, Request.call?, answered, failed]
  have refused : (tailExchanges problem unknown).fault = some (.outOfRange 9 3) := by
    decide +kernel
  obtain ⟨-, ⟨fault, same, fails⟩ | ⟨allowed, -⟩, -⟩ := moves unknown never
  · cases refused.symm.trans same
    exact ⟨calls ▸ remembers, by decide +kernel, fails⟩
  · cases refused.symm.trans allowed

end TruckDrone.TwoOpt
