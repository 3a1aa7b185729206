import TruckDrone.Json.Record
import TruckDrone.Proofs.Decimal
import TruckDrone.Proofs.Json.Reader

/-! What is known of a value that was read, whatever the text was. A state that entries or fields
are gathered into keeps the invariant that each of them keeps. -/

set_option autoImplicit false

namespace TruckDrone.Json.Reader

variable {α β σ δ : Type}

/-- Every value that the reader takes off a text has the property. -/
def Ensures (reader : Reader α) (property : α → Prop) : Prop :=
  ∀ text value rest, reader.run text = .ok (value, rest) → property value

theorem Ensures.whole {reader : Reader α} {property : α → Prop} (ensures : reader.Ensures property)
    {text : String} {value : α} (read : Reader.whole reader text = .ok value) : property value := by
  obtain ⟨rest, taken, -⟩ := whole_eq_ok.1 read
  exact ensures _ _ _ taken

theorem ensures_any (reader : Reader α) : reader.Ensures fun _ => True :=
  fun _ _ _ _ => True.intro

theorem ensures_pure {property : α → Prop} {value : α} (holds : property value) :
    (pure value : Reader α).Ensures property := by
  rintro text _ _ ⟨⟩
  exact holds

theorem ensures_refuse (refusal : Refusal) (property : α → Prop) :
    (refuse refusal : Reader α).Ensures property := by
  rintro text value rest ⟨⟩

theorem Ensures.bind {first : Reader α} {next : α → Reader β} {middle : α → Prop}
    {property : β → Prop} (front : first.Ensures middle)
    (back : ∀ value, middle value → (next value).Ensures property) :
    (first >>= next).Ensures property := by
  intro text value rest taken
  rw [run_bind] at taken
  cases found : first.run text with
  | error refusal => simp [found] at taken
  | ok answer =>
    simp only [found] at taken
    exact back _ (front _ _ _ found) _ _ _ taken

/-- What comes first may give any value. -/
theorem ensures_after {first : Reader α} {next : α → Reader β} {property : β → Prop}
    (back : ∀ value, (next value).Ensures property) : (first >>= next).Ensures property :=
  (ensures_any first).bind fun value _ => back value

theorem Ensures.map {reader : Reader α} {property : α → Prop} (ensures : reader.Ensures property)
    {change : α → β} {result : β → Prop}
    (changed : ∀ value, property value → result (change value)) :
    (change <$> reader).Ensures result :=
  ensures.bind fun value holds => ensures_pure (changed value holds)

theorem ensures_otherType (property : α → Prop) : (otherType : Reader α).Ensures property := by
  refine ensures_after fun found => ?_
  split
  · exact ensures_after fun _ => ensures_refuse _ _
  · exact ensures_after fun _ => ensures_refuse _ _
  · exact ensures_after fun _ => ensures_refuse _ _
  · exact ensures_after fun _ => ensures_after fun _ => ensures_refuse _ _
  · exact ensures_refuse _ _
  · exact ensures_refuse _ _
  · split
    · exact ensures_after fun _ => ensures_refuse _ _
    · exact ensures_refuse _ _
  · exact ensures_refuse _ _

/-! Numbers. -/

theorem coefficient_kept_lt (integer places : List Char) :
    (Numeral.kept integer places).coefficient < UInt64.size :=
  Decimal.appendBelow_lt (Decimal.appendBelow_lt (by decide) integer) places

theorem ensures_read :
    Numeral.read.Ensures fun numeral => numeral.magnitude.coefficient < UInt64.size := by
  refine ensures_after fun sign => ?_
  dsimp only
  split
  -- A sign is passed over, and the rest is read alike.
  case' isTrue => refine ensures_after fun _ => ?_
  all_goals
    refine ensures_after fun integer => ?_
    split
    · exact ensures_refuse _ _
    · exact ensures_after fun _ => ensures_after fun _ => ensures_pure (coefficient_kept_lt _ _)

theorem ensures_natural : natural.Ensures (· < UInt64.size) := by
  have numerals : numeral.Ensures fun numeral => numeral.magnitude.coefficient < UInt64.size := by
    refine ensures_after fun found => ?_
    split
    · split
      · refine ensures_read.bind fun numeral fits => ?_
        split
        · exact ensures_refuse _ _
        · exact ensures_pure fits
      · exact ensures_otherType _
    · exact ensures_refuse _ _
  refine numerals.bind fun numeral fits => ?_
  unfold Numeral.toNat?
  split
  next n found =>
    split at found
    · cases found
      exact ensures_pure fits
    · cases found
  next => exact ensures_refuse _ _

/-! Lists and records. -/

/-- The list ends where it stands, or an entry was read and the rest of the list after it. -/
theorem run_more_ok {close : Char} {entry : σ → Reader σ} {state value : σ} {text rest : List Char}
    (taken : run (more close entry state) text = .ok (value, rest)) :
    value = state ∨ ∃ behind next left, left.length < text.length ∧
      (entry state).run behind = .ok (next, left) ∧
      run (more close entry next) left = .ok (value, rest) := by
  have blanks := (List.dropWhile_sublist isBlank (l := text)).length_le
  unfold run at taken ⊢
  rw [more] at taken
  split at taken
  next => cases taken
  next c behind found =>
    rw [found, List.length_cons] at blanks
    split at taken
    next =>
      cases taken
      exact .inl rfl
    next =>
      split at taken
      next =>
        cases read : entry state behind with
        | error refusal => simp [read, Except.map] at taken
        | ok answer =>
          have shrinks := answer.shrinks
          refine .inr ⟨behind, answer.value, answer.rest, by omega, by rw [read]; rfl, ?_⟩
          simp only [read] at taken
          cases final : more close entry answer.value answer.rest with
          | error refusal => simp [final, Except.map] at taken
          | ok last =>
            simp only [final] at taken
            exact taken
      next => cases taken

theorem ensures_more {entry : σ → Reader σ} {invariant : σ → Prop}
    (step : ∀ state, invariant state → (entry state).Ensures invariant) (close : Char) {state : σ}
    (start : invariant state) : Ensures (more close entry state) invariant := by
  intro text
  induction text using (measure List.length).wf.induction generalizing state with
  | _ text shorter =>
  intro value rest taken
  rcases run_more_ok taken with rfl | ⟨behind, next, left, less, read, others⟩
  · exact start
  · exact shorter left less (step state start _ _ _ read) _ _ others

theorem ensures_entries {entry : σ → Reader σ} {invariant : σ → Prop}
    (step : ∀ state, invariant state → (entry state).Ensures invariant) (close : Char) {state : σ}
    (start : invariant state) : (entries close entry state).Ensures invariant := by
  refine ensures_after fun found => ?_
  split
  · exact ensures_after fun _ => ensures_pure start
  · exact (step state start).bind fun _ holds => ensures_more step close holds

theorem Ensures.list {item : Reader α} {property : α → Prop} (ensures : item.Ensures property) :
    (Reader.list item).Ensures fun values => ∀ value ∈ values, property value := by
  have held : (entries ']' (fun held => (· :: held) <$> item) []).Ensures
      fun held => ∀ value ∈ held, property value :=
    ensures_entries
      (fun held kept => ensures.map fun value holds => List.forall_mem_cons.2 ⟨holds, kept⟩) _
      (List.forall_mem_nil _)
  refine ensures_after fun found => ?_
  split
  · refine ensures_after fun _ => held.map fun values kept value member => ?_
    exact kept value (List.mem_reverse.1 member)
  · exact ensures_otherType _

/-! Records. Every field keeps the invariant of the draft, and a finished draft that keeps it has
the property. -/

section

variable {fields : List (RecordField δ)} {invariant : δ → Prop}
  (fill : ∀ field ∈ fields, ∀ draft, invariant draft → (field.fill draft).Ensures invariant)

include fill

theorem ensures_member {draft : δ} (kept : invariant draft) :
    (member fields draft).Ensures invariant := by
  refine ensures_after fun _ => ensures_after fun name => ?_
  dsimp only
  split
  · exact ensures_after fun _ => ensures_after fun _ => ensures_pure kept
  next field found =>
    split
    · exact ensures_refuse _ _
    · exact ensures_after fun _ => fill field (List.mem_of_find?_eq_some found) draft kept

theorem ensures_inOrder (first : Bool) {draft : δ} (kept : invariant draft) :
    (inOrder fields first draft).Ensures invariant := by
  induction fields generalizing first draft with
  | nil => exact ensures_pure kept
  | cons field others ih =>
    obtain ⟨here, later⟩ := List.forall_mem_cons.1 fill
    have step : Reader.Ensures (do inOrder others false (← field.fill draft)) invariant :=
      (here draft kept).bind fun next kept => ih later false kept
    rw [inOrder]
    refine ensures_after fun found => ?_
    split
    · exact ensures_refuse _ _
    · exact ensures_refuse _ _
    · dsimp only
      split
      · exact step
      · exact ensures_after fun _ => step

variable {empty : δ} (start : invariant empty) {finish : δ → Option α} {property : α → Prop}
  (finished : ∀ draft value, invariant draft → finish draft = some value → property value)

include start finished

theorem ensures_tuple : (tuple fields empty finish).Ensures property := by
  refine ensures_after fun _ => (ensures_inOrder fill true start).bind fun draft kept => ?_
  split
  · exact ensures_refuse _ _
  next value found =>
    exact ensures_after fun _ => ensures_pure (finished draft value kept found)

theorem ensures_record : (record fields empty finish).Ensures property := by
  refine ensures_after fun found => ?_
  split
  · refine ensures_after fun _ => ?_
    refine (ensures_entries (fun _ => ensures_member fill) _ start).bind fun draft kept => ?_
    split
    · exact ensures_refuse _ _
    next value found => exact ensures_pure (finished draft value kept found)
  · exact ensures_tuple fill start finished
  · exact ensures_otherType _

end

end TruckDrone.Json.Reader
