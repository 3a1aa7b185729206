import TruckDrone.Json.Value
import TruckDrone.Proofs.Json.Literal
import TruckDrone.Proofs.Json.Quoted

/-! Single values are read back from their written form, wherever it stands. -/

set_option autoImplicit false

namespace TruckDrone.Json

open Reader

variable {α β : Type}

/-- What the reader makes of a text, with blanks in front of it and anything behind that does not
continue a number. -/
def Takes (reader : Reader α) (text : List Char) (outcome : Except Refusal α) : Prop :=
  ∀ blanks rest : List Char, (∀ c ∈ blanks, isBlank c) → Ends rest →
    reader.run (blanks ++ (text ++ rest)) = outcome.map (·, rest)

theorem Takes.map {reader : Reader α} {text : List Char} {outcome : Except Refusal α}
    (takes : Takes reader text outcome) (change : α → β) :
    Takes (change <$> reader) text (outcome.map change) := by
  intro blanks rest blank ended
  rw [run_map, takes blanks rest blank ended]
  cases outcome <;> rfl

theorem Takes.whole_eq {reader : Reader α} {text : List Char} {outcome : Except Refusal α}
    (takes : Takes reader text outcome) : whole reader (String.ofList text) = outcome := by
  have taken := takes [] [] blank_nil ends_nil
  rw [List.nil_append, List.append_nil] at taken
  rw [run_whole, String.toList_ofList, taken]
  cases outcome <;> rfl

theorem run_look_bind {blanks : List Char} (blank : ∀ c ∈ blanks, isBlank c) {c : Char}
    (shown : isBlank c = false) (rest : List Char) (next : Option Char → Reader α) :
    (look >>= next).run (blanks ++ c :: rest) = (next (some c)).run (c :: rest) :=
  run_bind_ok (run_look blank shown rest) next

theorem takes_true : Takes flag ['t', 'r', 'u', 'e'] (.ok true) := by
  intro blanks rest blank _
  refine (run_look_bind blank (by decide) _ _).trans ?_
  exact run_bind_ok (run_word ['t', 'r', 'u', 'e'] rest) _

theorem takes_false : Takes flag ['f', 'a', 'l', 's', 'e'] (.ok false) := by
  intro blanks rest blank _
  refine (run_look_bind blank (by decide) _ _).trans ?_
  exact run_bind_ok (run_word ['f', 'a', 'l', 's', 'e'] rest) _

theorem takes_text (value : String) : Takes text (Quoted.write value.toList) (.ok value) := by
  intro blanks rest blank _
  rw [Quoted.write, List.cons_append, List.cons_append, List.append_assoc]
  refine (run_look_bind blank (by decide) _ _).trans ?_
  refine (run_bind_ok (run_advance ..) _).trans ?_
  rw [run_map, List.singleton_append, Quoted.run_rest]
  simp [Except.map]

theorem takes_variant {payload : String → Option (Payload α)} {name : String} {value : α}
    (found : (payload name).bind Payload.alone = some value) :
    Takes (variant payload) (Quoted.write name.toList) (.ok value) := by
  intro blanks rest blank ended
  refine (run_look_bind blank (by decide) _ _).trans ?_
  refine (run_bind_ok (takes_text name [] rest blank_nil ended) _).trans ?_
  rw [found]
  rfl

/-! Numbers. -/

theorem isBlank_of_isDigit {c : Char} (digit : c.isDigit) : isBlank c = false := by
  rw [Bool.eq_false_iff]
  intro blank
  simp only [isBlank, Bool.or_eq_true, decide_eq_true_eq] at blank
  rcases blank with ((rfl | rfl) | rfl) | rfl <;> exact absurd digit (by decide)

theorem Literal.exists_first (literal : Literal) :
    ∃ c rest, literal.text = c :: rest ∧ (c = '-' ∨ c.isDigit = true) := by
  obtain ⟨first, others, shape⟩ := List.exists_cons_of_ne_nil literal.integer_run.1
  have digit := literal.integer_run.2 first (by simp [shape])
  cases sign : literal.negative with
  | true => exact ⟨'-', _, by rw [text, sign]; rfl, .inl rfl⟩
  | false => exact ⟨first, _, by rw [text, sign, shape]; rfl, .inr digit⟩

/-- A literal that is too great for a double is refused, whatever it is read for. -/
theorem takes_numeral (literal : Literal) : Takes numeral literal.text
    (if literal.numeral.magnitude.scaled = Decimal.infinityBits then .error .malformed
      else .ok literal.numeral) := by
  intro blanks rest blank ended
  obtain ⟨c, others, shape, opens⟩ := literal.exists_first
  have shown : isBlank c = false := by
    rcases opens with rfl | digit
    · decide
    · exact isBlank_of_isDigit digit
  have taken := Numeral.run_read literal ended
  rw [shape, List.cons_append] at taken ⊢
  refine (run_look_bind blank shown _ _).trans ?_
  dsimp only
  rw [if_pos (by simpa using opens), Numeral.readFinite, run_bind_ok taken]
  split <;> rfl

theorem takes_float (literal : Literal) : Takes float literal.text
    (if literal.numeral.magnitude.scaled = Decimal.infinityBits then .error .malformed
      else .ok literal.numeral.toBinary64) := by
  have takes := (takes_numeral literal).map Numeral.toBinary64
  split at takes
  next great =>
    rw [if_pos great]
    exact takes
  next finite =>
    rw [if_neg finite]
    exact takes

theorem Literal.numeral_ofNat {n : Nat} (fits : n < UInt64.size) :
    (Literal.ofNat n).numeral = ⟨false, true, ⟨n, 0⟩⟩ := by
  have value := Decimal.value_digits n
  have kept : Numeral.kept (Decimal.digits n) [] = ⟨n, 0⟩ := by
    rw [Numeral.kept, Decimal.appendBelow_eq_value (value.symm ▸ fits), value]
    rfl
  simp [Literal.numeral, Literal.ofNat, Literal.exponent, kept, value, fits]

theorem takes_natural {n : Nat} (fits : n < UInt64.size) :
    Takes natural (Decimal.digits n) (.ok n) := by
  have takes := takes_numeral (.ofNat n)
  rw [Literal.text_ofNat, Literal.numeral_ofNat fits,
    if_neg (Nat.ne_of_lt (Decimal.scaled_natural_lt fits))] at takes
  intro blanks rest blank ended
  exact run_bind_ok (takes blanks rest blank ended) _

theorem takes_null : Takes float ['n', 'u', 'l', 'l'] (.error .mismatch) := by
  intro blanks rest blank _
  have other : (otherType : Reader Numeral).run ('n' :: (['u', 'l', 'l'] ++ rest)) =
      .error .mismatch :=
    (run_look_bind blank_nil (by decide) _ _).trans
      (run_bind_ok (run_word ['n', 'u', 'l', 'l'] rest) _)
  have numeral : numeral.run (blanks ++ 'n' :: (['u', 'l', 'l'] ++ rest)) = .error .mismatch :=
    (run_look_bind blank (by decide) _ _).trans other
  rw [float, run_map]
  exact congrArg _ numeral

end TruckDrone.Json
