import TruckDrone.Json.Numeral
import TruckDrone.Proofs.Json.Reader

/-! Number literals by their parts. A literal is taken off a text whole, unless what comes after
it would continue it. -/

set_option autoImplicit false

namespace TruckDrone.Json

/-- What cannot be read as more of a number. -/
def Ends (rest : List Char) : Prop :=
  ∀ c ∈ rest.head?, c.isDigit = false ∧ c ≠ '.' ∧ c ≠ 'e' ∧ c ≠ 'E'

theorem ends_nil : Ends [] := fun _ first => absurd first (Option.not_mem_none _)

def IsRun (run : List Char) : Prop := run ≠ [] ∧ ∀ c ∈ run, c.isDigit

/-- The parts of a number literal; a power is given by whether it is negative and by its digits. -/
structure Literal where
  negative : Bool
  integer : List Char
  places : Option (List Char)
  power : Option (Bool × List Char)
  integer_run : IsRun integer
  unpadded : integer.head? = some '0' → integer.length = 1
  places_run : ∀ run ∈ places, IsRun run
  power_run : ∀ entry ∈ power, IsRun entry.2

namespace Literal

variable (literal : Literal)

def placesText : List Char := literal.places.elim [] ('.' :: ·)

def powerText : List Char :=
  literal.power.elim [] fun (down, run) => 'e' :: (if down then '-' else '+') :: run

def text : List Char :=
  (if literal.negative then ['-'] else []) ++ literal.integer ++ literal.placesText ++
    literal.powerText

def exponent : Option Int :=
  literal.power.map fun (down, run) =>
    if down then -(Decimal.value run : Int) else Decimal.value run

theorem text_append (rest : List Char) : literal.text ++ rest =
    (if literal.negative then ['-'] else []) ++
      (literal.integer ++ (literal.placesText ++ (literal.powerText ++ rest))) := by
  simp only [text, List.append_assoc]

theorem head?_after_places {rest : List Char} (ended : Ends rest) :
    ∀ c ∈ (literal.powerText ++ rest).head?, c.isDigit = false ∧ c ≠ '.' := by
  intro c first
  unfold powerText at first
  cases found : literal.power with
  | none =>
    rw [found] at first
    exact ⟨(ended c first).1, (ended c first).2.1⟩
  | some entry =>
    rw [found] at first
    cases Option.mem_some.1 first
    decide

theorem head?_after_integer {rest : List Char} (ended : Ends rest) :
    ∀ c ∈ (literal.placesText ++ (literal.powerText ++ rest)).head?, c.isDigit = false := by
  intro c first
  unfold placesText at first
  cases found : literal.places with
  | none =>
    rw [found] at first
    exact (literal.head?_after_places ended c first).1
  | some run =>
    rw [found] at first
    cases Option.mem_some.1 first
    decide

theorem head?_ne_sign (rest : List Char) : (literal.integer ++ rest).head? ≠ some '-' := by
  obtain ⟨first, others, shape⟩ := List.exists_cons_of_ne_nil literal.integer_run.1
  have digit := literal.integer_run.2 first (by simp [shape])
  rw [shape, List.cons_append, List.head?_cons]
  intro sign
  cases Option.some.inj sign
  exact absurd digit (by decide)

def numeral : Numeral where
  negative := literal.negative
  whole := literal.places.isNone && literal.exponent.isNone &&
    Decimal.value literal.integer < UInt64.size
  magnitude :=
    let decimal := Numeral.kept literal.integer (literal.places.getD [])
    { decimal with exponent := decimal.exponent + literal.exponent.getD 0 }

end Literal

namespace Numeral

open Reader

theorem run_digits {run rest : List Char} (digits_run : IsRun run)
    (ended : ∀ c ∈ rest.head?, c.isDigit = false) :
    digits.run (run ++ rest) = .ok (run, rest) := by
  have stops : rest.takeWhile Char.isDigit = [] ∧ rest.dropWhile Char.isDigit = rest := by
    cases rest with
    | nil => exact ⟨rfl, rfl⟩
    | cons c others =>
      have other : ¬ c.isDigit = true := by simp [ended c rfl]
      exact ⟨List.takeWhile_cons_of_neg other, List.dropWhile_cons_of_neg other⟩
  have taken : (takeAll Char.isDigit).run (run ++ rest) = .ok (run, rest) := by
    have all : (takeAll Char.isDigit).run (run ++ rest) =
      .ok ((run ++ rest).takeWhile Char.isDigit, (run ++ rest).dropWhile Char.isDigit) := rfl
    rw [all, List.takeWhile_append_of_pos digits_run.2, List.dropWhile_append_of_pos digits_run.2,
      stops.1, stops.2, List.append_nil]
  rw [digits, run_bind_ok taken, if_neg (by simpa using digits_run.1)]
  rfl

theorem run_fraction (literal : Literal) {rest : List Char}
    (ended : ∀ c ∈ rest.head?, c.isDigit = false ∧ c ≠ '.') :
    fraction.run (literal.placesText ++ rest) = .ok (literal.places, rest) := by
  unfold Literal.placesText
  cases found : literal.places with
  | none =>
    have none : rest.head? ≠ some '.' := fun point => (ended _ point).2 rfl
    rw [Option.elim_none, List.nil_append, fraction, run_bind_ok (run_peek _), if_neg none]
    rfl
  | some run =>
    rw [Option.elim_some, List.cons_append, fraction, run_bind_ok (run_peek _), List.head?_cons,
      if_pos rfl, run_bind_ok (run_advance ..), run_map,
      run_digits (literal.places_run run found) fun c next => (ended c next).1]
    rfl

theorem run_exponent (literal : Literal) {rest : List Char} (ended : Ends rest) :
    exponent.run (literal.powerText ++ rest) = .ok (literal.exponent, rest) := by
  unfold Literal.powerText Literal.exponent
  rw [exponent, run_bind_ok (run_peek _), run_bind_ok (run_peek _)]
  cases found : literal.power with
  | none =>
    have small : rest.head? ≠ some 'e' := fun mark => (ended _ mark).2.2.1 rfl
    have large : rest.head? ≠ some 'E' := fun mark => (ended _ mark).2.2.2 rfl
    simp only [Option.elim_none, List.nil_append, small, large]
    rfl
  | some entry =>
    obtain ⟨down, run⟩ := entry
    have digits := run_digits (literal.power_run _ found) fun c next => (ended c next).1
    simp only [Option.elim_some, List.cons_append, List.head?_cons]
    rw [if_pos (by simp), run_bind_ok (run_advance ..), run_bind_ok (run_peek _)]
    cases down <;> exact (run_bind_ok (run_advance ..) _).trans (run_bind_ok digits _)

theorem run_read (literal : Literal) {rest : List Char} (ended : Ends rest) :
    read.run (literal.text ++ rest) = .ok (literal.numeral, rest) := by
  have integer := run_digits literal.integer_run (literal.head?_after_integer ended)
  have places := run_fraction literal (literal.head?_after_places ended)
  have power := run_exponent literal ended
  have unpadded : ¬ (decide (literal.integer.head? = some '0') &&
      decide (1 < literal.integer.length)) = true := by
    simp only [Bool.and_eq_true, decide_eq_true_eq, not_and]
    intro zero
    rw [literal.unpadded zero]
    exact Nat.lt_irrefl 1
  rw [literal.text_append, read, run_bind_ok (run_peek _)]
  cases sign : literal.negative with
  | true =>
    rw [if_pos rfl, List.singleton_append, List.head?_cons]
    dsimp only
    rw [if_pos rfl, run_bind_ok (run_advance ..), run_bind_ok integer, if_neg unpadded,
      run_bind_ok places, run_bind_ok power, Literal.numeral, sign]
    rfl
  | false =>
    have unsigned := literal.head?_ne_sign (literal.placesText ++ (literal.powerText ++ rest))
    rw [if_neg Bool.false_ne_true, List.nil_append]
    dsimp only
    rw [if_neg unsigned, run_bind_ok integer, if_neg unpadded,
      run_bind_ok places, run_bind_ok power, Literal.numeral, sign, decide_eq_false unsigned]
    rfl

end Numeral

end TruckDrone.Json
