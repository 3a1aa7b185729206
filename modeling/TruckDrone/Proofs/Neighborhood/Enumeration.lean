import Mathlib.Data.List.Forall2
import TruckDrone.Neighborhood.Sweep
import TruckDrone.Sequence

/-! What nested sweeps list, loop by loop. A sweep that meets a fault has listed the first of
its moves by then, and no others. -/

set_option autoImplicit false

namespace TruckDrone.Sweep

variable {α β : Type}

@[simp] theorem lift_ok_bind (item : α) (body : α → Sweep β) :
    (lift (.ok item) >>= body) = body item := by
  change (body item).append ⟨[], none⟩ = body item
  cases listed : body item with
  | mk items fault => cases fault <;> simp [append]

theorem lift_error_bind (fault : Fault) (body : α → Sweep β) :
    (lift (.error fault) >>= body) = ⟨[], some fault⟩ := rfl

theorem keepIf_bind (condition : Bool) (body : Unit → Sweep β) :
    (keepIf condition >>= body) = if condition then body () else ⟨[], none⟩ := by
  cases condition with
  | false => rfl
  | true => exact lift_ok_bind () body

variable {μ : Type} {safe : Prop} {yields : μ → α → Prop}

/-- A sweep lists what the moves yield, one item for each move and in their order: all of them
if it meets no fault, and it meets none where it is safe. -/
structure Lists (safe : Prop) (yields : μ → α → Prop) (moves : List μ) (sweep : Sweep α) :
    Prop where
  clean : safe → sweep.fault = none
  begun : ∃ met, met <+: moves ∧ List.Forall₂ yields met sweep.items
  complete : sweep.fault = none → List.Forall₂ yields moves sweep.items

theorem lists_nil : Lists safe yields [] ⟨[], none⟩ :=
  ⟨fun _ => rfl, ⟨[], List.nil_prefix, .nil⟩, fun _ => .nil⟩

theorem lists_pure {move : μ} {item : α} (yielded : yields move item) :
    Lists safe yields [move] (pure item) :=
  ⟨fun _ => rfl, ⟨_, List.prefix_rfl, .cons yielded .nil⟩, fun _ => .cons yielded .nil⟩

theorem Lists.append {early late : List μ} {first second : Sweep α}
    (now : Lists safe yields early first) (later : Lists safe yields late second) :
    Lists safe yields (early ++ late) (first.append second) := by
  cases cut : first.fault with
  -- What the second sweep would have listed is missing at the end.
  | some fault =>
    have same : first.append second = first := by
      rw [Sweep.append, cut]
    rw [same]
    obtain ⟨met, begins, listed⟩ := now.begun
    constructor
    · exact now.clean
    · exact ⟨met, begins.trans (List.prefix_append early late), listed⟩
    · intro clean
      rw [cut] at clean
      cases clean
  | none =>
    rw [append_of_clean cut]
    obtain ⟨met, begins, listed⟩ := later.begun
    constructor
    · exact later.clean
    · exact ⟨early ++ met, (List.prefix_append_right_inj early).2 begins,
        List.rel_append (now.complete cut) listed⟩
    · exact fun clean => List.rel_append (now.complete cut) (later.complete clean)

theorem lists_each_bind {items : List β} {body : β → Sweep α} {moves : β → List μ}
    (passes : ∀ item ∈ items, Lists safe yields (moves item) (body item)) :
    Lists safe yields (items.flatMap moves) (each items >>= body) := by
  induction items with
  | nil => exact lists_nil
  | cons head tail ih =>
    exact (passes head (List.mem_cons_self ..)).append
      (ih fun item member => passes item (List.mem_cons_of_mem _ member))

theorem lists_span_bind {count : Nat} {body : Nat → Sweep α} {moves : Nat → List μ}
    (passes : ∀ position < count, Lists safe yields (moves position) (body (position + 1))) :
    Lists safe yields ((List.range count).flatMap moves)
      (each (Sequence.span 1 (count + 1)) >>= body) := by
  -- The loop over positions from 1 on is one over positions from 0 on.
  have shifted : (List.range count).flatMap moves =
      (Sequence.span 1 (count + 1)).flatMap fun position => moves (position - 1) := by
    rw [Sequence.span, Nat.add_sub_cancel, List.range'_eq_map_range, List.flatMap_map]
    simp
  rw [shifted]
  apply lists_each_bind
  intro position member
  rw [Sequence.mem_span] at member
  obtain ⟨previous, rfl⟩ := Nat.exists_eq_add_of_le' member.1
  exact passes previous (by omega)

/-- A question that faults cuts the sweep short, so it must not arise where the sweep is safe. -/
theorem lists_lift_bind {answer : Except Fault β} {body : β → Sweep α} {moves : List μ}
    (sound : safe → ∀ fault, answer ≠ .error fault)
    (passes : ∀ item, answer = .ok item → Lists safe yields moves (body item)) :
    Lists safe yields moves (lift answer >>= body) := by
  cases answer with
  | ok item =>
    rw [lift_ok_bind]
    exact passes item rfl
  | error fault =>
    rw [lift_error_bind]
    constructor
    · exact fun here => absurd rfl (sound here fault)
    · exact ⟨[], List.nil_prefix, .nil⟩
    · intro clean
      cases clean

theorem lists_keepIf_bind {condition : Bool} {body : Unit → Sweep α} {moves : List μ}
    (passes : condition = true → Lists safe yields moves (body ())) :
    Lists safe yields (if condition then moves else []) (keepIf condition >>= body) := by
  rw [keepIf_bind]
  cases condition with
  | false => exact lists_nil
  | true => exact passes rfl

variable {moves : List μ} {sweep : Sweep α}

theorem Lists.all_listed (listed : Lists safe yields moves sweep) (here : safe) :
    List.Forall₂ yields moves sweep.items := listed.complete (listed.clean here)

theorem Lists.exists_item (listed : Lists safe yields moves sweep) (here : safe) {move : μ}
    (member : move ∈ moves) : ∃ item ∈ sweep.items, yields move item := by
  have matched := listed.all_listed here
  obtain ⟨position, inside, rfl⟩ := List.mem_iff_getElem.1 member
  have listedToo : position < sweep.items.length := matched.length_eq ▸ inside
  exact ⟨_, List.getElem_mem listedToo, matched.get inside listedToo⟩

/-- Where a move is known by something of what it yields, no two items have that in common. -/
theorem Lists.nodup_map {β : Type} (listed : Lists safe yields moves sweep) (here : safe)
    (distinct : moves.Nodup) (image : α → β)
    (known : ∀ first ∈ moves, ∀ second ∈ moves, ∀ x y, yields first x → yields second y →
      image x = image y → first = second) : (sweep.items.map image).Nodup := by
  have matched := listed.all_listed here
  apply List.pairwise_map.2
  apply List.pairwise_iff_getElem.2
  intro i j iListed jListed earlier same
  have iMoves : i < moves.length := matched.length_eq ▸ iListed
  have jMoves : j < moves.length := matched.length_eq ▸ jListed
  have equal := known _ (List.getElem_mem iMoves) _ (List.getElem_mem jMoves) _ _
    (matched.get iMoves iListed) (matched.get jMoves jListed) same
  exact Nat.ne_of_lt earlier ((List.getElem_inj distinct).1 equal)

/-- With or without a fault, each item that is listed was yielded by one of the moves. -/
theorem Lists.exists_of_mem (listed : Lists safe yields moves sweep) {item : α}
    (member : item ∈ sweep.items) : ∃ move ∈ moves, yields move item := by
  obtain ⟨met, begins, matched⟩ := listed.begun
  obtain ⟨position, inside, rfl⟩ := List.mem_iff_getElem.1 member
  have inMet : position < met.length := matched.length_eq ▸ inside
  exact ⟨met[position], begins.subset (List.getElem_mem inMet), matched.get inMet inside⟩

end TruckDrone.Sweep
