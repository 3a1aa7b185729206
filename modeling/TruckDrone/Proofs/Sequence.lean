import Mathlib.Data.List.Nodup
import Mathlib.Data.List.Perm.Basic
import TruckDrone.Sequence

/-! Where the entries of a list end up when a segment is reversed, or one is put in and another
taken out; how many results loops over the positions of a list have, and how often each. -/

set_option autoImplicit false

namespace TruckDrone.Sequence

variable {α : Type}

/-- Position `start + k` of the segment holds what stood `k` places before its end. -/
theorem getElem?_reverseSegment {items : List α} {start length : Nat}
    (inside : start + length ≤ items.length) (position : Nat) :
    (reverseSegment items start length)[position]? =
      items[if start ≤ position ∧ position < start + length then
        start + length - 1 - (position - start) else position]? := by
  unfold reverseSegment
  rw [List.append_assoc]
  rcases Nat.lt_or_ge position start with early | notEarly
  · rw [List.getElem?_append_left (by simp; omega), List.getElem?_take_of_lt early,
      if_neg (by omega)]
  rw [List.getElem?_append_right (by simp; omega), List.length_take_of_le (by omega)]
  rcases Nat.lt_or_ge position (start + length) with within | late
  · rw [List.getElem?_append_left (by simp; omega), List.getElem?_reverse (by simp; omega),
      List.getElem?_take_of_lt (by simp; omega), List.getElem?_drop, if_pos ⟨notEarly, within⟩]
    congr 1
    simp
    omega
  · rw [List.getElem?_append_right (by simp; omega), List.getElem?_drop, if_neg (by omega)]
    congr 1
    simp
    omega

theorem reverseSegment_cons_append (head last : α) (items : List α) {start length : Nat}
    (inside : start + length ≤ items.length) :
    reverseSegment (head :: items ++ [last]) (start + 1) length =
      head :: reverseSegment items start length ++ [last] := by
  unfold reverseSegment
  rw [List.cons_append, List.take_succ_cons, List.drop_succ_cons, Nat.add_right_comm,
    List.drop_succ_cons, List.take_append_of_le_length (by omega),
    List.drop_append_of_le_length (by omega), List.drop_append_of_le_length inside,
    List.take_append_of_le_length (by simp; omega)]
  simp

theorem insertIdx_append {items : List α} {position : Nat} (inside : position ≤ items.length)
    (item : α) (rest : List α) :
    (items ++ rest).insertIdx position item = items.insertIdx position item ++ rest := by
  induction items generalizing position with
  | nil =>
    cases Nat.le_zero.1 inside
    rfl
  | cons head tail ih =>
    cases position with
    | zero => rfl
    | succ position =>
      rw [List.cons_append, List.insertIdx_succ_cons, List.insertIdx_succ_cons,
        ih (Nat.le_of_succ_le_succ inside), List.cons_append]

theorem insertIdx_cons_append (head last item : α) {items : List α} {position : Nat}
    (inside : position ≤ items.length) :
    (head :: items ++ [last]).insertIdx (position + 1) item =
      head :: items.insertIdx position item ++ [last] := by
  rw [List.cons_append, List.insertIdx_succ_cons, insertIdx_append inside]
  rfl

theorem eraseIdx_cons_append (head last : α) {items : List α} {position : Nat}
    (inside : position < items.length) :
    (head :: items ++ [last]).eraseIdx (position + 1) =
      head :: items.eraseIdx position ++ [last] := by
  rw [List.cons_append, List.eraseIdx_cons_succ, List.eraseIdx_append_of_lt_length inside]
  rfl

theorem entry_eq_ok_iff {items : List α} {position : Nat} {item : α} :
    entry items position = .ok item ↔ items[position]? = some item := by
  unfold entry
  split <;> simp_all

theorem exists_append_of_getElem? {items : List α} {position : Nat} {item : α}
    (present : items[position]? = some item) :
    ∃ front back, items = front ++ item :: back ∧ position = front.length := by
  obtain ⟨inside, rfl⟩ := List.getElem?_eq_some_iff.1 present
  refine ⟨items.take position, items.drop (position + 1), ?_, ?_⟩
  · rw [List.getElem_cons_drop, List.take_append_drop]
  · exact (List.length_take_of_le (Nat.le_of_lt inside)).symm

theorem entry_cons_append (head last : α) {items : List α} {position : Nat} {item : α}
    (present : items[position]? = some item) :
    entry (head :: items ++ [last]) (position + 1) = .ok item := by
  obtain ⟨inside, rfl⟩ := List.getElem?_eq_some_iff.1 present
  unfold entry
  rw [List.cons_append, List.getElem?_cons_succ, List.getElem?_append_left inside, present]

theorem insertAt_cons_append (head last item : α) {items : List α} {position : Nat}
    (inside : position ≤ items.length) :
    insertAt (head :: items ++ [last]) (position + 1) item =
      .ok (head :: items.insertIdx position item ++ [last]) := by
  rw [insertAt_eq_ok (by simp; omega), insertIdx_cons_append head last item inside]

theorem eraseAt_cons_append (head last : α) {items : List α} {position : Nat}
    (inside : position < items.length) :
    eraseAt (head :: items ++ [last]) (position + 1) =
      .ok (head :: items.eraseIdx position ++ [last]) := by
  rw [eraseAt_eq_ok (by simp; omega), eraseIdx_cons_append head last inside]

/-- The position, before an item was put in at `arrival`, of the entry now at `departure`. -/
def sourceOf (arrival departure : Nat) : Nat :=
  if arrival < departure then departure - 1 else departure

/-- The position that an item put in at `arrival` has once the entry that stood at `source`
is taken out. -/
def settledAt (arrival source : Nat) : Nat := if arrival ≤ source then arrival else arrival - 1

theorem sourceOf_lt {arrival departure count : Nat} (inArrival : arrival ≤ count)
    (inDeparture : departure ≤ count) (apart : arrival ≠ departure) :
    sourceOf arrival departure < count := by
  unfold sourceOf
  split <;> omega

theorem settledAt_lt {arrival source count : Nat} (inArrival : arrival ≤ count)
    (inSource : source < count) : settledAt arrival source < count := by
  unfold settledAt
  split <;> omega

theorem sourceOf_add_one (arrival departure : Nat) :
    (if arrival + 1 < departure + 1 then departure + 1 - 1 else departure + 1) =
      sourceOf arrival departure + 1 := by
  unfold sourceOf
  split
  · rw [if_pos (by omega)]
    omega
  · rw [if_neg (by omega)]

/-- Putting one item in and taking another out: first out, then in, comes to the same. -/
theorem eraseIdx_insertIdx {items : List α} {arrival departure : Nat}
    (inArrival : arrival ≤ items.length) (inDeparture : departure ≤ items.length)
    (apart : arrival ≠ departure) (item : α) :
    (items.insertIdx arrival item).eraseIdx departure =
      (items.eraseIdx (sourceOf arrival departure)).insertIdx
        (settledAt arrival (sourceOf arrival departure)) item := by
  unfold sourceOf settledAt
  rcases Nat.lt_or_gt_of_ne apart with earlier | later
  · obtain ⟨source, rfl⟩ : ∃ source, departure = source + 1 := ⟨departure - 1, by omega⟩
    rw [if_pos earlier, Nat.add_sub_cancel, if_pos (Nat.le_of_lt_succ earlier),
      List.insertIdx_eraseIdx_of_le inDeparture (Nat.le_of_lt_succ earlier)]
  · obtain ⟨settled, rfl⟩ : ∃ settled, arrival = settled + 1 := ⟨arrival - 1, by omega⟩
    rw [if_neg (by omega), if_neg (by omega), Nat.add_sub_cancel,
      List.insertIdx_eraseIdx_of_ge (by omega) (Nat.le_of_lt_succ later)]

theorem eraseAt_insertIdx_cons_append (head last item : α) {items : List α}
    {arrival departure : Nat} (inArrival : arrival ≤ items.length)
    (inDeparture : departure ≤ items.length) (apart : arrival ≠ departure) :
    eraseAt (head :: items.insertIdx arrival item ++ [last]) (departure + 1) =
      .ok (head :: (items.eraseIdx (sourceOf arrival departure)).insertIdx
        (settledAt arrival (sourceOf arrival departure)) item ++ [last]) := by
  have grown : departure < (items.insertIdx arrival item).length := by
    rw [List.length_insertIdx_of_le_length inArrival]
    omega
  rw [eraseAt_cons_append head last grown, eraseIdx_insertIdx inArrival inDeparture apart]

/-- Over all departures other than `arrival`, the sources are all positions in turn. -/
theorem flatMap_sourceOf {β : Type} {arrival count : Nat} (inside : arrival ≤ count)
    (found : Nat → List β) :
    ((List.range (count + 1)).flatMap fun departure =>
      if arrival != departure then found (sourceOf arrival departure) else []) =
        (List.range count).flatMap found := by
  obtain ⟨rest, rfl⟩ := Nat.exists_eq_add_of_le inside
  have before : ((List.range arrival).flatMap fun departure =>
      if arrival != departure then found (sourceOf arrival departure) else []) =
        (List.range arrival).flatMap found := by
    apply List.flatMap_congr
    intro departure member
    have early := List.mem_range.1 member
    rw [if_pos (bne_iff_ne.2 (by omega)), sourceOf, if_neg (by omega)]
  have after : ((List.range rest).flatMap fun further =>
      if arrival != arrival + (further + 1) then found (sourceOf arrival (arrival + (further + 1)))
      else []) = (List.range rest).flatMap fun further => found (arrival + further) := by
    apply List.flatMap_congr
    intro further _
    rw [if_pos (bne_iff_ne.2 (by omega)), sourceOf, if_pos (by omega)]
    rfl
  rw [Nat.add_assoc, List.range_add, List.range_succ_eq_map, List.map_cons, List.map_map,
    List.flatMap_append, List.flatMap_cons, List.flatMap_map, before]
  simp only [Nat.add_zero, bne_self_eq_false, Function.comp_apply]
  rw [after, List.range_add, List.flatMap_append, List.flatMap_map]
  rfl

theorem map_settledAt {source count : Nat} (inside : source < count) :
    (List.range (count + 1)).map (fun arrival => settledAt arrival source) =
      List.range (source + 1) ++ span source count := by
  obtain ⟨rest, rfl⟩ := Nat.exists_eq_add_of_le (Nat.succ_le_of_lt inside)
  have before : (List.range (source + 1)).map (fun arrival => settledAt arrival source) =
      List.range (source + 1) := by
    refine (List.map_congr_left fun arrival member => ?_).trans (List.map_id _)
    exact if_pos (Nat.le_of_lt_succ (List.mem_range.1 member))
  have after : (List.range (rest + 1)).map
      (fun further => settledAt (source + 1 + further) source) =
        span source (source + 1 + rest) := by
    have length : source + 1 + rest - source = rest + 1 := by omega
    rw [span, length, List.range'_eq_map_range]
    apply List.map_congr_left
    intro further _
    rw [settledAt, if_neg (by omega), Nat.add_right_comm, Nat.add_sub_cancel]
  rw [show source.succ + rest + 1 = source + 1 + (rest + 1) by omega, List.range_add,
    List.map_append, before, List.map_map]
  exact congrArg _ after

theorem count_settledAt {position source count : Nat} (inside : position < count)
    (present : source < count) :
    ((List.range (count + 1)).map fun arrival => settledAt arrival source).count position =
      if position = source then 2 else 1 := by
  have early : ∀ bound, (List.range bound).count position = if position < bound then 1 else 0 := by
    intro bound
    split
    · exact List.count_eq_one_of_mem List.nodup_range (List.mem_range.2 (by assumption))
    · exact List.count_eq_zero.2 fun member => absurd (List.mem_range.1 member) (by assumption)
  have late : (span source count).count position = if source ≤ position then 1 else 0 := by
    split
    · exact List.count_eq_one_of_mem List.nodup_range' (mem_span.2 ⟨by assumption, inside⟩)
    · exact List.count_eq_zero.2 fun member => absurd (mem_span.1 member).1 (by assumption)
  rw [map_settledAt present, List.count_append, early, late]
  -- The source is the last of the early positions and the first of the late ones.
  rcases Nat.lt_trichotomy position source with before | same | after
  · rw [if_pos (by omega), if_neg (by omega), if_neg (by omega)]
  · rw [if_pos (by omega), if_pos (by omega), if_pos same]
  · rw [if_neg (by omega), if_pos (by omega), if_neg (by omega)]

/-! How many results nested loops list, and how often each of them. -/

theorem length_flatMap_of_forall {β : Type} {items : List α} {results : α → List β} {count : Nat}
    (constant : ∀ item, (results item).length = count) :
    (items.flatMap results).length = items.length * count := by
  rw [List.length_flatMap]
  simp only [constant, List.map_const', List.sum_replicate_nat]

theorem length_flatMap_any {β : Type} {items : List α} {accepts : α → Bool}
    {results : Nat → List β} {count : Nat}
    (constant : ∀ position, (results position).length = count) :
    ((List.range items.length).flatMap fun position =>
      if (items[position]?).any accepts then results position else []).length =
        items.countP accepts * count := by
  -- Past the head the loop is the one over the tail, one position further on.
  induction items generalizing results with
  | nil => simp
  | cons head tail ih =>
    rw [List.length_cons, List.range_succ_eq_map, List.flatMap_cons, List.flatMap_map,
      List.length_append]
    simp only [List.getElem?_cons_succ, List.getElem?_cons_zero, Option.any_some]
    rw [ih fun position => constant (position + 1), List.countP_cons, Nat.add_mul, Nat.add_comm]
    congr 1
    split
    · rw [constant, Nat.one_mul]
    · rw [Nat.zero_mul, List.length_nil]

theorem count_flatMap_of_only {β : Type} [BEq α] [LawfulBEq α] [DecidableEq β] {items : List α}
    {results : α → List β} {result : β} (found : α)
    (only : ∀ item ∈ items, result ∈ results item → item = found) :
    (items.flatMap results).count result = items.count found * (results found).count result := by
  induction items with
  | nil => simp
  | cons head tail ih =>
    have rest := ih fun item member => only item (List.mem_cons_of_mem _ member)
    rw [List.flatMap_cons, List.count_append, rest, List.count_cons]
    by_cases here : head = found
    · simp [here, Nat.add_mul, Nat.add_comm]
    · have absent : result ∉ results head := fun member =>
        here (only head (List.mem_cons_self ..) member)
      simp [here, List.count_eq_zero.2 absent]

theorem count_flatMap_congr {β : Type} [DecidableEq β] {items : List α}
    {first second : α → List β} {result : β}
    (same : ∀ item ∈ items, (first item).count result = (second item).count result) :
    (items.flatMap first).count result = (items.flatMap second).count result := by
  rw [List.count_flatMap, List.count_flatMap]
  exact congrArg List.sum (List.map_congr_left same)

theorem flatMap_filter {β : Type} (accepts : α → Bool) (items : List α) (results : α → List β) :
    (items.filter accepts).flatMap results =
      items.flatMap fun item => if accepts item then results item else [] := by
  induction items with
  | nil => rfl
  | cons head tail ih =>
    rw [List.filter_cons, List.flatMap_cons, ← ih]
    split <;> rfl

theorem flatMap_swap {β γ : Type} (outer : List α) (inner : List β) (results : α → β → List γ) :
    (outer.flatMap fun a => inner.flatMap (results a)).Perm
      (inner.flatMap fun b => outer.flatMap fun a => results a b) := by
  induction outer with
  | nil => simp
  | cons head tail ih =>
    simp only [List.flatMap_cons]
    exact (ih.append_left _).trans (List.flatMap_append_perm _ _ _)

end TruckDrone.Sequence
