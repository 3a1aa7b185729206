import Mathlib.Data.Sym.Sym2
import TruckDrone.Json.Model
import TruckDrone.Proofs.Json.Document
import TruckDrone.Proofs.Json.Ensures
import TruckDrone.Proofs.Neighborhood.Recency

/-! Edges as pairs in no order. An edge with the smaller stop first is known by its ends. Edges are
made so, but one that is read keeps the order it is written in, and next to the edge with the same
ends it takes a second place in a recency list. -/

set_option autoImplicit false

namespace TruckDrone

open Json Json.Reader

namespace Edge

def ends (edge : Edge) : Sym2 Nat := s(edge.first, edge.second)

def Ordered (edge : Edge) : Prop := edge.first ≤ edge.second

instance (edge : Edge) : Decidable edge.Ordered := inferInstanceAs (Decidable (_ ≤ _))

theorem ordered_between (a b : Nat) : (between a b).Ordered := min_le_max

theorem ends_between (a b : Nat) : (between a b).ends = s(a, b) := by
  rw [ends, Sym2.eq_iff]
  simp only [between]
  omega

variable {edge other : Edge}

theorem eq_iff_ends : edge = other ↔ edge.ends = other.ends ∧ (edge.Ordered ↔ other.Ordered) := by
  obtain ⟨a, b⟩ := edge
  obtain ⟨c, d⟩ := other
  simp only [mk.injEq, ends, Sym2.eq_iff, Ordered]
  omega

/-! Reading. -/

theorem reads_edge (first : edge.first < UInt64.size) (second : edge.second < UInt64.size) :
    Reads reader edge.toDocument (.ok edge) := by
  have tuple : Reads (tuple fields {} fun draft => return ⟨← draft.first, ← draft.second⟩)
      edge.toDocument (.ok edge) := by
    have fills : Fills fields {} [.natural edge.first, .natural edge.second]
        ⟨some edge.first, some edge.second⟩ :=
      .step ((reads_natural first).map _) (.step ((reads_natural second).map _) .done)
    exact reads_tuple fills rfl
  intro layout depth blanks rest blank ended
  have taken := tuple layout depth [] rest blank_nil ended
  rw [toDocument, Document.write, Document.enclose_eq_cons, List.cons_append] at *
  exact (run_look_bind blank (by decide) _ _).trans taken

def Draft.Sized (draft : Draft) : Prop :=
  (∀ id ∈ draft.first, id < UInt64.size) ∧ ∀ id ∈ draft.second, id < UInt64.size

theorem ensures_fill : ∀ field ∈ fields, ∀ draft : Draft, draft.Sized →
    (field.fill draft).Ensures Draft.Sized := by
  refine List.forall_mem_cons.2 ⟨fun draft sized => ?first, List.forall_mem_singleton.2 ?second⟩
  case first =>
    refine ensures_natural.map fun read fits => ⟨?_, sized.2⟩
    rintro id ⟨⟩
    exact fits
  case second =>
    intro draft sized
    refine ensures_natural.map fun read fits => ⟨sized.1, ?_⟩
    rintro id ⟨⟩
    exact fits

theorem ensures_reader :
    reader.Ensures fun edge => edge.first < UInt64.size ∧ edge.second < UInt64.size := by
  have empty : Draft.Sized {} := ⟨by rintro id ⟨⟩, by rintro id ⟨⟩⟩
  refine ensures_after fun found => ?_
  split
  · refine ensures_tuple ensures_fill empty ?_
    rintro ⟨_ | first, _ | second⟩ edge sized finished <;> cases finished
    exact ⟨sized.1 first rfl, sized.2 second rfl⟩
  · exact ensures_otherType _

end Edge

namespace RecencyList

def entriesOver (list : RecencyList) (ends : Sym2 Nat) : List Edge :=
  list.entries.filter fun entry => entry.ends = ends

variable {uses : List Use} {edge other : Edge}

theorem entries_touch_touch (capacity : Nat) (uses : List Use) (edge other : Edge) :
    (((after capacity uses).touch edge).touch other).entries =
      (((touched uses ++ [edge]).dedup.erase other) ++ [other]).rtake capacity := by
  have whole := entries_after capacity (uses ++ [.touch edge] ++ [.touch other])
  rw [after_append, after_append, touched_append_touch, touched_append_touch,
    Sequence.dedup_append_singleton] at whole
  exact whole

/-- The edge touched last stands behind the others, none of which it is. -/
theorem exists_entries_touch_touch {capacity : Nat} (room : 0 < capacity) (uses : List Use)
    (edge other : Edge) : ∃ before,
      (((after capacity uses).touch edge).touch other).entries = before ++ [other] ∧
      other ∉ before ∧ ∀ entry ∈ before, entry ∈ touched uses ∨ entry = edge := by
  obtain ⟨count, rfl⟩ := Nat.exists_eq_add_one_of_ne_zero (Nat.ne_of_gt room)
  refine ⟨((touched uses ++ [edge]).dedup.erase other).rtake count, ?_, ?_, ?_⟩
  · rw [entries_touch_touch, List.rtake_concat_succ]
  · exact fun member => (List.nodup_dedup _).not_mem_erase (List.mem_of_mem_drop member)
  · intro entry member
    have met := List.mem_dedup.1 (List.mem_of_mem_erase (List.mem_of_mem_drop member))
    simpa using met

/-- Two touches of the same stops leave one entry for them just if both edges are ordered, given
that one of them is and all edges before were. -/
theorem entriesOver_touch_touch (ordered : ∀ earlier ∈ touched uses, earlier.Ordered)
    (same : edge.ends = other.ends) (either : edge.Ordered ∨ other.Ordered) (capacity : Nat) :
    let list := ((after capacity uses).touch edge).touch other
    ((list.entriesOver other.ends).length = 1 ∧ list.contains edge = list.contains other) ↔
      0 < capacity ∧ edge.Ordered ∧ other.Ordered := by
  intro list
  rcases Nat.eq_zero_or_pos capacity with rfl | room
  · have empty : list.entries = [] := by
      rw [entries_touch_touch, List.rtake_zero]
    simp [entriesOver, empty]
  obtain ⟨before, entries, fresh, known⟩ := exists_entries_touch_touch room uses edge other
  have entries : list.entries = before ++ [other] := entries
  constructor
  · rintro ⟨single, alike⟩
    -- The first edge is still there and cannot be another entry.
    have listed : edge ∈ before ∨ edge = other := by
      simpa [contains, entries] using alike
    have none : ∀ entry ∈ before, entry.ends ≠ other.ends := by
      simpa [entriesOver, entries, List.filter_append] using single
    have equal : edge = other := listed.resolve_left fun member => none edge member same
    subst equal
    exact ⟨room, or_self_iff.1 either, or_self_iff.1 either⟩
  · rintro ⟨-, first, second⟩
    have equal : edge = other := Edge.eq_iff_ends.2 ⟨same, iff_of_true first second⟩
    subst equal
    have none : ∀ entry ∈ before, entry.ends ≠ edge.ends := by
      intro entry member meets
      have sorted : entry.Ordered := by
        rcases known entry member with earlier | rfl
        · exact ordered entry earlier
        · exact first
      exact fresh (Edge.eq_iff_ends.2 ⟨meets, iff_of_true sorted first⟩ ▸ member)
    refine ⟨?_, rfl⟩
    simpa [entriesOver, entries, List.filter_append] using none

end RecencyList

/-- Edges are made with the smaller stop first, and so is the trivial one. Any edge of 64 bits is
read from its text as it stands, and no other edge is read. Edges are equal just if they lie between
the same stops and both or neither of them are ordered. After a history of ordered edges, two
touches of the same stops leave one entry for them and answers that agree, in a list with room for
one, just if both edges are ordered, given that one of them is. -/
theorem Edge.normalized_unless_read (edge other : Edge) :
    (∀ a b, (between a b).Ordered ∧ (between a b).ends = s(a, b)) ∧ trivial.Ordered ∧
    (edge.first < UInt64.size → edge.second < UInt64.size →
      ∀ layout, whole reader (edge.toDocument.toText layout) = .ok edge) ∧
    (∀ text, whole reader text = .ok edge →
      edge.first < UInt64.size ∧ edge.second < UInt64.size) ∧
    (edge = other ↔ edge.ends = other.ends ∧ (edge.Ordered ↔ other.Ordered)) ∧
    ∀ (capacity : Nat) (uses : List RecencyList.Use),
      (∀ earlier ∈ RecencyList.touched uses, earlier.Ordered) →
        edge.ends = other.ends → (edge.Ordered ∨ other.Ordered) →
          let list := ((RecencyList.after capacity uses).touch edge).touch other
          ((list.entriesOver other.ends).length = 1 ∧ list.contains edge = list.contains other) ↔
            0 < capacity ∧ edge.Ordered ∧ other.Ordered :=
  ⟨fun a b => ⟨ordered_between a b, ends_between a b⟩, Nat.le_refl 0,
    fun first second => (reads_edge first second).whole_eq,
    fun _ read => ensures_reader.whole read, eq_iff_ends,
    fun capacity _ ordered same either =>
      RecencyList.entriesOver_touch_touch ordered same either capacity⟩

/-- The greatest stop of all, and the same two stops named the other way round. -/
theorem Edge.normalized_unless_read_greatest :
    let edge : Edge := ⟨7, 18446744073709551615⟩
    let list := (((RecencyList.after 2 [.touch (between 2 1)]).touch edge).touch
      (between 18446744073709551615 7))
    (∀ layout, whole reader (edge.toDocument.toText layout) = .ok edge) ∧
      whole reader "[18446744073709551615, 7]" = .ok ⟨18446744073709551615, 7⟩ ∧
      edge = between 18446744073709551615 7 ∧
      (list.entriesOver s(7, 18446744073709551615)).length = 1 ∧ list.contains edge = true := by
  intro edge list
  have swapped : whole reader "[18446744073709551615, 7]" = .ok ⟨18446744073709551615, 7⟩ := by
    decide +kernel
  obtain ⟨made, -, written, -, equal, entries⟩ :=
    normalized_unless_read edge (between 18446744073709551615 7)
  have same : edge.ends = (between 18446744073709551615 7).ends := rfl
  have ordered : edge.Ordered := by decide
  obtain ⟨single, -⟩ := (entries 2 [.touch (between 2 1)] (by decide) same (.inl ordered)).2
    ⟨by decide, ordered, (made _ _).1⟩
  exact ⟨written (by decide) (by decide), swapped,
    equal.2 ⟨same, iff_of_true ordered (made _ _).1⟩, single, by decide⟩

/-- A pair with the greater stop first is read so, and a list keeps it beside its edge. -/
theorem Edge.reading_keeps_order :
    let edge : Edge := ⟨7, 3⟩
    let list := ((RecencyList.empty 2).touch edge).touch (between 7 3)
    whole reader "[7,3]" = .ok edge ∧ ¬ edge.Ordered ∧
      edge.ends = (between 7 3).ends ∧ edge ≠ between 7 3 ∧
      list.entriesOver (between 7 3).ends = [edge, between 7 3] := by
  decide +kernel

end TruckDrone
