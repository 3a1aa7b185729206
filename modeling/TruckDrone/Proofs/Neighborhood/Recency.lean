import Mathlib.Data.List.Dedup
import Mathlib.Data.List.DropRight
import TruckDrone.Neighborhood.RecencyList

/-! What a recency list holds after any history of uses: the edges touched since it was last
cleared, each at the place of its last touch, and of those the latest up to the capacity. -/

set_option autoImplicit false

namespace TruckDrone

/-! The last items of a list, and items at the place of their last occurrence. -/

namespace Sequence

variable {α : Type}

theorem length_rtake (items : List α) (count : Nat) :
    (items.rtake count).length = min count items.length := by
  simp [List.rtake]
  omega

theorem rtake_of_length_le {items : List α} {count : Nat} (all : items.length ≤ count) :
    items.rtake count = items := by
  simp [List.rtake, all]

theorem rtake_cons_of_le (head : α) {tail : List α} {count : Nat} (enough : count ≤ tail.length) :
    (head :: tail).rtake count = tail.rtake count := by
  simp [List.rtake, Nat.succ_sub enough]

theorem tail_rtake {items : List α} {count : Nat} (more : count < items.length) :
    (items.rtake (count + 1)).tail = items.rtake count := by
  rw [List.rtake, List.tail_drop, List.rtake]
  congr 1
  omega

variable [DecidableEq α]

/-- Without an item that is among the last, one fewer of them is left. -/
theorem rtake_erase_of_mem {items : List α} {item : α} {count : Nat} (distinct : items.Nodup)
    (recent : item ∈ items.rtake (count + 1)) :
    (items.erase item).rtake count = (items.rtake (count + 1)).erase item := by
  induction items with
  | nil => simp at recent
  | cons head tail ih =>
    obtain ⟨fresh, distinctTail⟩ := List.nodup_cons.1 distinct
    by_cases enough : count + 1 ≤ tail.length
    · rw [rtake_cons_of_le head enough] at recent ⊢
      have inTail : item ∈ tail := List.mem_of_mem_drop recent
      have apart : head ≠ item := fun same => fresh (same ▸ inTail)
      have left : count ≤ (tail.erase item).length := by
        rw [List.length_erase_of_mem inTail]
        omega
      rw [List.erase_cons_tail (by simpa using apart), rtake_cons_of_le head left,
        ih distinctTail recent]
    · have all : (head :: tail).length ≤ count + 1 := by
        rw [List.length_cons]
        omega
      rw [rtake_of_length_le all] at recent ⊢
      apply rtake_of_length_le
      rw [List.length_erase_of_mem recent]
      omega

/-- An item that is not among the last is as well left out. -/
theorem rtake_erase_of_notMem {items : List α} {item : α} {count : Nat}
    (absent : item ∉ items.rtake (count + 1)) :
    (items.erase item).rtake count = items.rtake count := by
  induction items with
  | nil => rfl
  | cons head tail ih =>
    by_cases enough : count + 1 ≤ tail.length
    · rw [rtake_cons_of_le head enough] at absent
      rw [rtake_cons_of_le head (Nat.le_of_succ_le enough)]
      by_cases same : head = item
      · rw [same, List.erase_cons_head]
      · have left : count ≤ (tail.erase item).length := by
          have fewer := List.le_length_erase (l := tail) (a := item)
          omega
        rw [List.erase_cons_tail (by simpa using same), rtake_cons_of_le head left, ih absent]
    · have all : (head :: tail).length ≤ count + 1 := by
        rw [List.length_cons]
        omega
      rw [rtake_of_length_le all] at absent
      rw [List.erase_of_not_mem absent]

theorem dedup_append_singleton (items : List α) (item : α) :
    (items ++ [item]).dedup = items.dedup.erase item ++ [item] := by
  induction items with
  | nil => simp
  | cons head tail ih =>
    rw [List.cons_append]
    by_cases again : head ∈ tail
    · rw [List.dedup_cons_of_mem (List.mem_append_left _ again), List.dedup_cons_of_mem again, ih]
    · rw [List.dedup_cons_of_notMem again]
      by_cases same : head = item
      · rw [List.dedup_cons_of_mem (by simp [same]), ih, same, List.erase_cons_head,
          List.erase_of_not_mem (by simpa [← same] using again)]
      · rw [List.dedup_cons_of_notMem (by simp [again, same]), ih,
          List.erase_cons_tail (by simpa using same), List.cons_append]

/-- Of two items the one that was met again after the last of the other stands later. -/
theorem pairwise_dedup (items : List α) :
    items.dedup.Pairwise fun earlier later => ∃ before after,
      items = before ++ earlier :: after ∧ earlier ∉ after ∧ later ∈ after := by
  induction items with
  | nil => simp
  | cons head tail ih =>
    have shifted : tail.dedup.Pairwise fun earlier later => ∃ before after,
        head :: tail = before ++ earlier :: after ∧ earlier ∉ after ∧ later ∈ after := by
      refine ih.imp ?_
      rintro earlier later ⟨before, after, rfl, last, follows⟩
      exact ⟨head :: before, after, rfl, last, follows⟩
    by_cases again : head ∈ tail
    · rwa [List.dedup_cons_of_mem again]
    · rw [List.dedup_cons_of_notMem again]
      refine List.pairwise_cons.2 ⟨fun later follows => ?_, shifted⟩
      exact ⟨[], tail, rfl, again, List.mem_dedup.1 follows⟩

end Sequence

namespace RecencyList

open Sequence

inductive Use where
  | touch (edge : Edge)
  | clear
  deriving DecidableEq, Repr

def Use.edge? : Use → Option Edge
  | .touch edge => some edge
  | .clear => none

def use (list : RecencyList) : Use → RecencyList
  | .touch edge => list.touch edge
  | .clear => list.clear

def after (capacity : Nat) (uses : List Use) : RecencyList := uses.foldl use (empty capacity)

/-- Every edge touched since the list was last cleared, as often as it was touched. -/
def touched (uses : List Use) : List Edge := (uses.rtakeWhile (· ≠ .clear)).filterMap Use.edge?

@[simp] theorem after_append (capacity : Nat) (uses : List Use) (last : Use) :
    after capacity (uses ++ [last]) = (after capacity uses).use last := by
  simp [after]

@[simp] theorem touched_append_touch (uses : List Use) (edge : Edge) :
    touched (uses ++ [.touch edge]) = touched uses ++ [edge] := by
  simp [touched, Use.edge?]

@[simp] theorem touched_append_clear (uses : List Use) : touched (uses ++ [.clear]) = [] := by
  simp [touched]

theorem capacity_after (capacity : Nat) (uses : List Use) :
    (after capacity uses).capacity = capacity := by
  induction uses using List.reverseRecOn with
  | nil => rfl
  | append_singleton uses last ih =>
    rw [after_append]
    cases last with
    | touch edge => exact (capacity_touch _ edge).trans ih
    | clear => exact ih

/-- A touch keeps a list the end of a longer order in which the edge moves to the end. -/
theorem entries_touch {list : RecencyList} {order : List Edge} (distinct : order.Nodup)
    (held : list.entries = order.rtake list.capacity) (edge : Edge) :
    (list.touch edge).entries = (order.erase edge ++ [edge]).rtake list.capacity := by
  unfold touch
  cases room : list.capacity with
  | zero =>
    have empty : list.entries = [] := by
      rw [held, room, List.rtake_zero]
    simp [empty]
  | succ count =>
    rw [room] at held
    rw [List.rtake_concat_succ, held]
    by_cases recent : edge ∈ order.rtake (count + 1)
    · rw [if_pos recent, rtake_erase_of_mem distinct recent]
    · rw [if_neg recent, rtake_erase_of_notMem recent]
      -- Only a full list evicts, and then its oldest entry.
      by_cases full : count < order.length
      · have length : (order.rtake (count + 1)).length = count + 1 := by
          rw [length_rtake]
          omega
        have someone : order.rtake (count + 1) ≠ [] := List.ne_nil_of_length_eq_add_one length
        simp only [List.length_append, length, List.length_singleton]
        rw [if_pos (Nat.lt_succ_self _), List.tail_append_of_ne_nil someone, tail_rtake full]
      · have all : order.length ≤ count := Nat.le_of_not_lt full
        rw [rtake_of_length_le all, rtake_of_length_le (Nat.le_succ_of_le all)]
        simp only [List.length_append, List.length_singleton]
        rw [if_neg (by omega)]

theorem entries_after (capacity : Nat) (uses : List Use) :
    (after capacity uses).entries = (touched uses).dedup.rtake capacity := by
  induction uses using List.reverseRecOn with
  | nil => simp [after, empty, touched]
  | append_singleton uses last ih =>
    rw [after_append]
    cases last with
    | touch edge =>
      have here : (after capacity uses).entries =
          (touched uses).dedup.rtake (after capacity uses).capacity := by
        rw [capacity_after, ih]
      rw [touched_append_touch, dedup_append_singleton, use,
        entries_touch (List.nodup_dedup _) here edge, capacity_after]
    | clear => simp [use, clear]

/-- After any history the entries are the edges touched since the last clear, each once and in the
order of their last touches, and of those the latest up to the capacity. -/
theorem entries_exact (capacity : Nat) (uses : List Use) :
    let list := after capacity uses
    let recent := (touched uses).dedup.rtake capacity
    list.capacity = capacity ∧ list.entries = recent ∧
      (list.entries.Pairwise fun earlier later => ∃ before after,
        touched uses = before ++ earlier :: after ∧ earlier ∉ after ∧ later ∈ after) ∧
      list.size ≤ capacity ∧ list.entries.Nodup ∧
      (∀ edge, list.contains edge = true ↔ edge ∈ recent) ∧
      list.latest? = if capacity = 0 then none else (touched uses).getLast? := by
  intro list recent
  have entries : list.entries = recent := entries_after capacity uses
  have ending : recent.Sublist (touched uses).dedup := List.drop_sublist _ _
  refine ⟨capacity_after capacity uses, entries, ?_, ?_, ?_, fun edge => ?_, ?_⟩
  · rw [entries]
    exact (pairwise_dedup _).sublist ending
  · rw [size, entries, length_rtake]
    exact Nat.min_le_left _ _
  · rw [entries]
    exact (List.nodup_dedup _).sublist ending
  · rw [contains, entries, decide_eq_true_iff]
  · rw [latest?, entries]
    -- The last touch of all is the last touch of its edge.
    cases capacity with
    | zero => simp [recent]
    | succ count =>
      rcases List.eq_nil_or_concat (touched uses) with none | ⟨earlier, last, all⟩
      · simp [recent, none]
      · simp [recent, all, dedup_append_singleton, List.rtake_concat_succ]

end RecencyList

end TruckDrone
