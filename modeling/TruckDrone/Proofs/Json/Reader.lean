import TruckDrone.Json.Reader

/-! What readers take off a text that starts with what they look for. Blanks in front are passed
over, and what comes after is left as it is. -/

set_option autoImplicit false

namespace TruckDrone.Json.Reader

variable {α β σ : Type}

def run (reader : Reader α) (text : List Char) : Except Refusal (α × List Char) :=
  (reader text).map fun taken => (taken.value, taken.rest)

theorem run_pure (value : α) (text : List Char) :
    (pure value : Reader α).run text = .ok (value, text) := rfl

theorem run_bind (first : Reader α) (next : α → Reader β) (text : List Char) :
    (first >>= next).run text =
      match first.run text with
      | .error refusal => .error refusal
      | .ok (value, rest) => (next value).run rest := by
  unfold run
  simp only [bind]
  cases first text with
  | error refusal => rfl
  | ok taken =>
    simp only [Except.map]
    cases next taken.value taken.rest <;> rfl

theorem run_bind_ok {first : Reader α} {text rest : List Char} {value : α}
    (done : first.run text = .ok (value, rest)) (next : α → Reader β) :
    (first >>= next).run text = (next value).run rest := by
  rw [run_bind, done]

theorem run_bind_error {first : Reader α} {text : List Char} {refusal : Refusal}
    (failed : first.run text = .error refusal) (next : α → Reader β) :
    (first >>= next).run text = .error refusal := by
  rw [run_bind, failed]

theorem run_map (change : α → β) (reader : Reader α) (text : List Char) :
    (change <$> reader).run text =
      (reader.run text).map fun taken => (change taken.1, taken.2) := by
  have bound : (change <$> reader).run text = (reader >>= pure ∘ change).run text := rfl
  rw [bound, run_bind]
  cases reader.run text <;> rfl

theorem run_whole (reader : Reader α) (text : String) : whole reader text =
    match reader.run text.toList with
    | .error refusal => .error refusal
    | .ok (value, rest) => if rest.all isBlank then .ok value else .error .malformed := by
  unfold whole run
  cases reader text.toList <;> rfl

theorem whole_eq_ok {reader : Reader α} {text : String} {value : α} :
    whole reader text = .ok value ↔
      ∃ rest, reader.run text.toList = .ok (value, rest) ∧ rest.all isBlank = true := by
  rw [run_whole]
  constructor
  · intro read
    cases taken : reader.run text.toList with
    | error refusal => simp [taken] at read
    | ok answer =>
      simp only [taken] at read
      split at read
      next blank =>
        cases read
        exact ⟨answer.2, rfl, blank⟩
      next => cases read
  · rintro ⟨rest, taken, blank⟩
    rw [taken]
    exact if_pos blank

/-! Single characters and words. -/

theorem blank_nil : ∀ c ∈ ([] : List Char), isBlank c := List.forall_mem_nil _

theorem run_peek (text : List Char) : peek.run text = .ok (text.head?, text) := rfl

theorem run_advance (c : Char) (rest : List Char) : advance.run (c :: rest) = .ok ((), rest) := rfl

theorem run_take (c : Char) (rest : List Char) : take.run (c :: rest) = .ok (c, rest) := rfl

theorem dropWhile_blanks {blanks : List Char} (blank : ∀ c ∈ blanks, isBlank c) {c : Char}
    (shown : isBlank c = false) (rest : List Char) :
    (blanks ++ c :: rest).dropWhile isBlank = c :: rest := by
  rw [List.dropWhile_append_of_pos blank, List.dropWhile_cons_of_neg (by simp [shown])]

theorem run_look {blanks : List Char} (blank : ∀ c ∈ blanks, isBlank c) {c : Char}
    (shown : isBlank c = false) (rest : List Char) :
    look.run (blanks ++ c :: rest) = .ok (some c, c :: rest) := by
  have found : look.run (blanks ++ c :: rest) =
      .ok (((blanks ++ c :: rest).dropWhile isBlank).head?,
        (blanks ++ c :: rest).dropWhile isBlank) := rfl
  rw [found, dropWhile_blanks blank shown]
  rfl

theorem run_expect {blanks : List Char} (blank : ∀ c ∈ blanks, isBlank c) {c : Char}
    (shown : isBlank c = false) (rest : List Char) :
    (expect c).run (blanks ++ c :: rest) = .ok ((), rest) := by
  rw [expect, run_bind_ok (run_look blank shown rest), if_pos rfl]
  rfl

theorem run_word (letters rest : List Char) :
    (word letters).run (letters ++ rest) = .ok ((), rest) := by
  induction letters with
  | nil => rfl
  | cons letter others ih =>
    rw [word, List.forM_eq_forM, List.forM_cons]
    have here : (do if (← take) ≠ letter then refuse .malformed : Reader Unit).run
        (letter :: (others ++ rest)) = .ok ((), others ++ rest) := by
      rw [run_bind_ok (run_take ..), if_neg fun other => other rfl]
      rfl
    exact (run_bind_ok here _).trans ih

/-! Lists of entries. -/

theorem run_more_close {blanks : List Char} (blank : ∀ c ∈ blanks, isBlank c) {close : Char}
    (shown : isBlank close = false) (entry : σ → Reader σ) (state : σ) (rest : List Char) :
    run (more close entry state) (blanks ++ close :: rest) = .ok (state, rest) := by
  have reached : (blanks ++ close :: rest).dropWhile isBlank = close :: rest :=
    dropWhile_blanks blank shown rest
  unfold run
  rw [more]
  split
  next found => simp [reached] at found
  next c others found =>
    rw [reached] at found
    cases found
    rw [if_pos rfl]
    rfl

theorem run_more_comma {blanks : List Char} (blank : ∀ c ∈ blanks, isBlank c) {close : Char}
    (other : ',' ≠ close) (entry : σ → Reader σ) (state : σ) (rest : List Char) :
    run (more close entry state) (blanks ++ ',' :: rest) =
      run (do more close entry (← entry state)) rest := by
  have reached : (blanks ++ ',' :: rest).dropWhile isBlank = ',' :: rest :=
    dropWhile_blanks blank (by decide) rest
  unfold run
  rw [more]
  split
  next found => simp [reached] at found
  next c others found =>
    rw [reached] at found
    cases found
    rw [if_neg other, if_pos rfl]
    simp only [bind]
    cases entry state rest with
    | error refusal => rfl
    | ok taken =>
      dsimp only
      cases more close entry taken.value taken.rest <;> rfl

end TruckDrone.Json.Reader
