import Mathlib.Data.List.Basic
import TruckDrone.Json.Document
import TruckDrone.Json.Record
import TruckDrone.Proofs.Json.Value

/-! Documents are read back in either layout, at any depth. What a record is read as follows from
what its fields are read as, the first refusal included. -/

set_option autoImplicit false

namespace TruckDrone.Json

open Reader

variable {α σ δ : Type} {layout : Layout} {depth : Nat} {close : Char}

/-- A text that no bracket or blank opens, so that a list does not end there. -/
def Begins (text : List Char) : Prop :=
  ∃ c rest, text = c :: rest ∧ isBlank c = false ∧ c ≠ ']' ∧ c ≠ '}'

/-- What the written items do to a state, one after the other up to the first refusal. -/
inductive Gathers (entry : σ → Reader σ) : σ → List (List Char) → Except Refusal σ → Prop where
  | done {state : σ} : Gathers entry state [] (.ok state)
  | step {state next : σ} {item : List Char} {items : List (List Char)}
      {outcome : Except Refusal σ} (begins : Begins item)
      (takes : Takes (entry state) item (.ok next)) (others : Gathers entry next items outcome) :
      Gathers entry state (item :: items) outcome
  | stop {state : σ} {item : List Char} {items : List (List Char)} {refusal : Refusal}
      (begins : Begins item) (takes : Takes (entry state) item (.error refusal)) :
      Gathers entry state (item :: items) (.error refusal)

def Document.interior (layout : Layout) (depth : Nat) (close : Char) : List (List Char) → List Char
  | [] => [close]
  | first :: items =>
    layout.line (depth + 1) ++ (first ++
      (items.flatMap (fun item => ',' :: layout.line (depth + 1) ++ item) ++
        (layout.line depth ++ [close])))

theorem Document.enclose_eq_cons (layout : Layout) (depth : Nat) (opening close : Char)
    (items : List (List Char)) :
    enclose layout depth opening close items = opening :: interior layout depth close items := by
  cases items <;> simp [enclose, interior]

theorem isBlank_of_mem_line : ∀ c ∈ layout.line depth, isBlank c := by
  cases layout with
  | compact => exact blank_nil
  | indented =>
    refine List.forall_mem_cons.2 ⟨by decide, ?_⟩
    exact List.forall_mem_replicate.2 (.inr (by decide))

def Closes (close : Char) : Prop := close = ']' ∨ close = '}'

theorem ends_line_close (closes : Closes close) (rest : List Char) :
    Ends (layout.line depth ++ close :: rest) := by
  intro c first
  cases layout with
  | compact =>
    cases Option.mem_some.1 first
    rcases closes with rfl | rfl <;> decide
  | indented =>
    cases Option.mem_some.1 first
    decide

theorem ends_items (closes : Closes close) (items : List (List Char)) (rest : List Char) :
    Ends (items.flatMap (fun item => ',' :: layout.line (depth + 1) ++ item) ++
      (layout.line depth ++ close :: rest)) := by
  cases items with
  | nil => exact ends_line_close closes rest
  | cons item others =>
    intro c first
    cases Option.mem_some.1 first
    decide

theorem Closes.shown (closes : Closes close) : isBlank close = false := by
  rcases closes with rfl | rfl <;> decide

theorem run_more (closes : Closes close) {entry : σ → Reader σ} {state : σ}
    {items : List (List Char)} {outcome : Except Refusal σ}
    (gathers : Gathers entry state items outcome) (rest : List Char) :
    run (more close entry state)
      (items.flatMap (fun item => ',' :: layout.line (depth + 1) ++ item) ++
        (layout.line depth ++ close :: rest)) = outcome.map (·, rest) := by
  have comma : ',' ≠ close := by
    rcases closes with rfl | rfl <;> decide
  induction gathers with
  | done => exact run_more_close isBlank_of_mem_line closes.shown entry _ rest
  | step _ takes _ ih =>
    rw [List.flatMap_cons, List.append_assoc, List.append_assoc, List.cons_append]
    refine (run_more_comma blank_nil comma entry _ _).trans ?_
    refine (run_bind_ok (takes _ _ isBlank_of_mem_line (ends_items closes _ rest)) _).trans ?_
    exact ih
  | stop _ takes =>
    rw [List.flatMap_cons, List.append_assoc, List.append_assoc, List.cons_append]
    refine (run_more_comma blank_nil comma entry _ _).trans ?_
    exact run_bind_error (takes _ _ isBlank_of_mem_line (ends_items closes _ rest)) _

theorem run_entries_cons (closes : Closes close) {item : List Char} (begins : Begins item)
    (entry : σ → Reader σ) (state : σ) {blanks : List Char} (blank : ∀ c ∈ blanks, isBlank c)
    (rest : List Char) :
    (entries close entry state).run (blanks ++ (item ++ rest)) =
      (entry state >>= more close entry).run (item ++ rest) := by
  obtain ⟨c, behind, rfl, shown, list, record⟩ := begins
  have goes : some c ≠ some close := by
    rintro ⟨⟩
    rcases closes with rfl | rfl <;> contradiction
  refine (run_look_bind blank shown _ _).trans ?_
  rw [if_neg goes]
  rfl

theorem run_entries (closes : Closes close) {entry : σ → Reader σ} {state : σ}
    {items : List (List Char)} {outcome : Except Refusal σ}
    (gathers : Gathers entry state items outcome) (rest : List Char) :
    (entries close entry state).run (Document.interior layout depth close items ++ rest) =
      outcome.map (·, rest) := by
  cases gathers with
  | done =>
    refine (run_look_bind blank_nil closes.shown _ _).trans ?_
    rw [if_pos rfl]
    rfl
  | step begins takes others =>
    simp only [Document.interior, List.append_assoc, List.singleton_append]
    rw [run_entries_cons closes begins _ _ isBlank_of_mem_line]
    refine (run_bind_ok (takes [] _ blank_nil (ends_items closes _ rest)) _).trans ?_
    exact run_more closes others rest
  | stop begins takes =>
    simp only [Document.interior, List.append_assoc, List.singleton_append]
    rw [run_entries_cons closes begins _ _ isBlank_of_mem_line]
    exact run_bind_error (takes [] _ blank_nil (ends_items closes _ rest)) _

/-! Lists and records, given what their items do. -/

theorem takes_list {item : Reader α} {items : List (List Char)} {values : List α}
    (gathers : Gathers (fun held => (· :: held) <$> item) [] items (.ok values.reverse)) :
    Takes (list item) (Document.enclose layout depth '[' ']' items) (.ok values) := by
  intro blanks rest blank _
  rw [Document.enclose_eq_cons, List.cons_append]
  refine (run_look_bind blank (by decide) _ _).trans ?_
  refine (run_bind_ok (run_advance ..) _).trans ?_
  rw [run_map, run_entries (.inl rfl) gathers]
  simp [Except.map]

theorem takes_record {fields : List (RecordField δ)} {empty : δ} {finish : δ → Option α}
    {items : List (List Char)} {outcome : Except Refusal δ}
    (gathers : Gathers (member fields) empty items outcome) {result : Except Refusal α}
    (finishes : (outcome.bind fun draft => (finish draft).elim (.error .mismatch) .ok) = result) :
    Takes (record fields empty finish) (Document.enclose layout depth '{' '}' items) result := by
  intro blanks rest blank _
  rw [Document.enclose_eq_cons, List.cons_append]
  refine (run_look_bind blank (by decide) _ _).trans ?_
  refine (run_bind_ok (run_advance ..) _).trans ?_
  have read : (entries '}' (member fields) empty).run
      (Document.interior layout depth '}' items ++ rest) = outcome.map (·, rest) :=
    run_entries (.inr rfl) gathers rest
  subst finishes
  cases outcome with
  | error refusal => exact run_bind_error read _
  | ok draft =>
    refine (run_bind_ok read _).trans ?_
    cases finished : finish draft <;> simp [Except.bind, finished] <;> rfl

theorem takes_member {fields : List (RecordField δ)} {field : RecordField δ} {name : String}
    (found : fields.find? (·.name = name) = some field) {draft : δ}
    (fresh : field.isFilled draft = false) {text : List Char} {outcome : Except Refusal δ}
    (takes : Takes (field.fill draft) text outcome) :
    Takes (member fields draft) (Quoted.write name.toList ++ layout.colon ++ text) outcome := by
  intro blanks rest blank ended
  obtain ⟨gap, blankGap, colon⟩ : ∃ gap, (∀ c ∈ gap, isBlank c) ∧ layout.colon = ':' :: gap := by
    cases layout with
    | compact => exact ⟨[], blank_nil, rfl⟩
    | indented => exact ⟨[' '], List.forall_mem_singleton.2 rfl, rfl⟩
  have shape : Quoted.write name.toList ++ layout.colon ++ text ++ rest =
      '"' :: (name.toList.flatMap Quoted.escaped ++ '"' :: ':' :: (gap ++ (text ++ rest))) := by
    simp [Quoted.write, colon]
  rw [shape]
  refine (run_bind_ok (run_expect blank (by decide) _) _).trans ?_
  refine (run_bind_ok (Quoted.run_rest _ _) _).trans ?_
  dsimp only
  rw [String.ofList_toList, found]
  dsimp only
  rw [if_neg (by simp [fresh])]
  refine (run_bind_ok (run_expect blank_nil (by decide) _) _).trans ?_
  exact takes gap rest blankGap ended

/-! Documents. -/

/-- What the reader makes of a document, however it is laid out. -/
def Reads (reader : Reader α) (document : Document) (outcome : Except Refusal α) : Prop :=
  ∀ layout depth, Takes reader (document.write layout depth) outcome

theorem begins_literal (literal : Literal) : Begins literal.text := by
  obtain ⟨c, rest, shape, opens⟩ := literal.exists_first
  refine ⟨c, rest, shape, ?_⟩
  rcases opens with rfl | digit
  · decide
  · refine ⟨isBlank_of_isDigit digit, ?_, ?_⟩ <;>
    · rintro rfl
      exact absurd digit (by decide)

theorem begins_write (document : Document) : Begins (document.write layout depth) := by
  cases document with
  | null => exact ⟨_, _, by rw [Document.write], by decide⟩
  | flag value => cases value <;> exact ⟨_, _, by rw [Document.write], by decide⟩
  | natural n =>
    rw [Document.write, ← Literal.text_ofNat]
    exact begins_literal _
  | float x =>
    rw [Document.write, Document.floatText]
    split
    · obtain ⟨literal, written⟩ := Literal.exists_floatText .report x
      exact written ▸ begins_literal literal
    · exact ⟨_, _, rfl, by decide⟩
  | text value => exact ⟨_, _, by rw [Document.write]; rfl, by decide⟩
  | list items =>
    rw [Document.write, Document.enclose_eq_cons]
    exact ⟨_, _, rfl, by decide⟩
  | record fields =>
    rw [Document.write, Document.enclose_eq_cons]
    exact ⟨_, _, rfl, by decide⟩

theorem Reads.map {β : Type} {reader : Reader α} {document : Document} {outcome : Except Refusal α}
    (reads : Reads reader document outcome) (change : α → β) :
    Reads (change <$> reader) document (outcome.map change) :=
  fun layout depth => (reads layout depth).map change

theorem Reads.whole_eq {reader : Reader α} {document : Document} {outcome : Except Refusal α}
    (reads : Reads reader document outcome) (layout : Layout) :
    whole reader (document.toText layout) = outcome :=
  (reads layout 0).whole_eq

theorem reads_natural {n : Nat} (fits : n < UInt64.size) : Reads natural (.natural n) (.ok n) := by
  intro layout depth
  rw [Document.write]
  exact takes_natural fits

theorem reads_flag (value : Bool) : Reads flag (.flag value) (.ok value) := by
  intro layout depth
  cases value <;> rw [Document.write]
  · exact takes_false
  · exact takes_true

theorem reads_text (value : String) : Reads text (.text value) (.ok value) := by
  intro layout depth
  rw [Document.write]
  exact takes_text value

theorem reads_float (x : Binary64) :
    Reads float (.float x) (whole float (String.ofList (Document.floatText x))) := by
  obtain ⟨outcome, takes⟩ : ∃ outcome, Takes float (Document.floatText x) outcome := by
    rw [Document.floatText]
    split
    · obtain ⟨literal, written⟩ := Literal.exists_floatText .report x
      exact ⟨_, written ▸ takes_float literal⟩
    · exact ⟨_, takes_null⟩
  have alone := takes.whole_eq
  intro layout depth
  rw [Document.write, alone]
  exact takes

theorem reads_list {item : Reader α} {toDocument : α → Document} {values : List α}
    (reads : ∀ value ∈ values, Reads item (toDocument value) (.ok value)) :
    Reads (list item) (.list (values.map toDocument)) (.ok values) := by
  intro layout depth
  -- The items read so far are held in reverse.
  have gathers : ∀ held, Gathers (fun held => (· :: held) <$> item) held
      (Document.writeItems layout (depth + 1) (values.map toDocument))
      (.ok (values.reverse ++ held)) := by
    induction values with
    | nil =>
      intro held
      exact .done
    | cons value others ih =>
      intro held
      obtain ⟨first, later⟩ := List.forall_mem_cons.1 reads
      rw [List.reverse_cons, List.append_assoc]
      exact .step (begins_write _) ((first layout (depth + 1)).map _) (ih later (value :: held))
  rw [Document.write]
  apply takes_list
  simpa using gathers []

section

variable {fields : List (RecordField δ)} {field : RecordField δ} {name : String}
  (found : fields.find? (·.name = name) = some field) {draft : δ}
  (fresh : field.isFilled draft = false) {document : Document} {others : List (String × Document)}

include found fresh

theorem gathers_field {next : δ} (reads : Reads (field.fill draft) document (.ok next))
    {outcome : Except Refusal δ}
    (gathers : Gathers (member fields) next (Document.writeFields layout depth others) outcome) :
    Gathers (member fields) draft (Document.writeFields layout depth ((name, document) :: others))
      outcome :=
  .step ⟨'"', _, rfl, by decide⟩ (takes_member found fresh (reads layout depth)) gathers

theorem refuses_field {refusal : Refusal}
    (reads : Reads (field.fill draft) document (.error refusal)) :
    Gathers (member fields) draft (Document.writeFields layout depth ((name, document) :: others))
      (.error refusal) :=
  .stop ⟨'"', _, rfl, by decide⟩ (takes_member found fresh (reads layout depth))

end

/-! Records written as the lists of their fields. -/

inductive Fills : List (RecordField δ) → δ → List Document → δ → Prop where
  | done {draft : δ} : Fills [] draft [] draft
  | step {field : RecordField δ} {fields : List (RecordField δ)} {draft next final : δ}
      {document : Document} {documents : List Document}
      (reads : Reads (field.fill draft) document (.ok next))
      (others : Fills fields next documents final) :
      Fills (field :: fields) draft (document :: documents) final

/-- The fields after the first, each with a comma in front. -/
theorem run_inOrder {fields : List (RecordField δ)} {draft final : δ} {documents : List Document}
    (fills : Fills fields draft documents final) (rest : List Char) :
    (inOrder fields false draft).run
      ((Document.writeItems layout (depth + 1) documents).flatMap
          (fun item => ',' :: layout.line (depth + 1) ++ item) ++
        (layout.line depth ++ ']' :: rest)) = .ok (final, layout.line depth ++ ']' :: rest) := by
  induction fills with
  | done => rfl
  | step reads _ ih =>
    rw [Document.writeItems, List.flatMap_cons, List.append_assoc, List.append_assoc,
      List.cons_append]
    refine (run_look_bind blank_nil (by decide) _ _).trans ?_
    refine (run_bind_ok (run_expect blank_nil (by decide) _) _).trans ?_
    refine (run_bind_ok (reads _ _ _ _ isBlank_of_mem_line ?_) _).trans ih
    exact ends_items (.inl rfl) _ rest

/-- The first field stands before them, behind the bracket. -/
theorem run_inOrder_first {field : RecordField δ} {fields : List (RecordField δ)} {draft final : δ}
    {document : Document} {documents : List Document}
    (fills : Fills (field :: fields) draft (document :: documents) final) (rest : List Char) :
    (inOrder (field :: fields) true draft).run
      (Document.interior layout depth ']'
        (Document.writeItems layout (depth + 1) (document :: documents)) ++ rest) =
      .ok (final, layout.line depth ++ ']' :: rest) := by
  cases fills with
  | step reads others =>
    obtain ⟨c, behind, shape, shown, list, -⟩ := @begins_write layout (depth + 1) document
    have first := fun left => reads layout (depth + 1) [] left blank_nil
    simp only [shape, List.nil_append] at first
    simp only [Document.writeItems, Document.interior, List.append_assoc, List.singleton_append,
      shape]
    refine (run_look_bind isBlank_of_mem_line shown _ _).trans ?_
    split
    next found => cases found
    next found => exact absurd (Option.some.inj found) list
    next =>
      refine (run_bind_ok (first _ ?_) _).trans (run_inOrder others rest)
      exact ends_items (.inl rfl) _ rest

theorem reads_tuple {field : RecordField δ} {fields : List (RecordField δ)} {empty final : δ}
    {document : Document} {documents : List Document}
    (fills : Fills (field :: fields) empty (document :: documents) final)
    {finish : δ → Option α} {value : α} (finished : finish final = some value) :
    Reads (tuple (field :: fields) empty finish) (.list (document :: documents)) (.ok value) := by
  intro layout depth blanks rest blank _
  rw [Document.write, Document.enclose_eq_cons, List.cons_append]
  refine (run_bind_ok (run_expect blank (by decide) _) _).trans ?_
  refine (run_bind_ok (run_inOrder_first fills rest) _).trans ?_
  rw [finished]
  exact run_bind_ok (run_expect isBlank_of_mem_line (by decide) rest) _

end TruckDrone.Json
