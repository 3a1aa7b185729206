import Mathlib.Tactic.SplitIfs
import TruckDrone.Proofs.Decimal
import TruckDrone.Proofs.Json.Numeral

/-! Written numbers are literals: natural numbers, and doubles in every style. None of them starts
with a zero that could be left out. -/

set_option autoImplicit false

namespace TruckDrone.Json

open Decimal (digits)

theorem isRun_digits (n : Nat) : IsRun (digits n) :=
  ⟨Decimal.digits_ne_nil n, Decimal.isDigit_of_mem_digits n⟩

theorem isRun_zero : IsRun ['0'] :=
  ⟨List.cons_ne_nil _ _, List.forall_mem_singleton.2 rfl⟩

theorem isRun_append {front run : List Char} (digits : ∀ c ∈ front, c.isDigit)
    (run_run : IsRun run) : IsRun (front ++ run) :=
  ⟨List.append_ne_nil_of_right_ne_nil _ run_run.1, List.forall_mem_append.2 ⟨digits, run_run.2⟩⟩

theorem isDigit_of_mem_zeros {count : Nat} : ∀ c ∈ List.replicate count '0', c.isDigit :=
  List.forall_mem_replicate.2 (.inr (by decide))

theorem isRun_take {run : List Char} (run_run : IsRun run) {count : Nat} (some : count ≠ 0) :
    IsRun (run.take count) := by
  refine ⟨?_, fun c member => run_run.2 c (List.mem_of_mem_take member)⟩
  simpa using ⟨some, run_run.1⟩

theorem isRun_drop {run : List Char} (run_run : IsRun run) {count : Nat}
    (inside : count < run.length) : IsRun (run.drop count) := by
  refine ⟨?_, fun c member => run_run.2 c (List.mem_of_mem_drop member)⟩
  simpa using inside

namespace Literal

def ofNat (n : Nat) : Literal where
  negative := false
  integer := digits n
  places := none
  power := none
  integer_run := isRun_digits n
  unpadded zero := by
    have same : n = 0 := Decidable.by_contra fun positive =>
      Decimal.head?_digits_ne_zero positive zero
    rw [same, digits]
    rfl
  places_run := nofun
  power_run := nofun

theorem text_ofNat (n : Nat) : (ofNat n).text = digits n := by
  simp [text, ofNat, placesText, powerText]

def signed (negative : Bool) (literal : Literal) : Literal := { literal with negative }

theorem text_signed (negative : Bool) {literal : Literal} (unsigned : literal.negative = false) :
    (literal.signed negative).text = (if negative then ['-'] else []) ++ literal.text := by
  simp [text, signed, placesText, powerText, unsigned]
  rfl

def zero : Literal where
  negative := false
  integer := ['0']
  places := some ['0']
  power := none
  integer_run := isRun_zero
  unpadded _ := rfl
  places_run := by
    rintro run ⟨⟩
    exact isRun_zero
  power_run := nofun

/-! The forms of a positive decimal. -/

variable {all : List Char} (all_run : IsRun all)

def small (zeros : Nat) : Literal where
  negative := false
  integer := ['0']
  places := some (List.replicate zeros '0' ++ all)
  power := none
  integer_run := isRun_zero
  unpadded _ := rfl
  places_run := by
    rintro run ⟨⟩
    exact isRun_append isDigit_of_mem_zeros all_run
  power_run := nofun

variable (first : all.head? ≠ some '0')

/-- Digits in front of the point only, and as many zeros as there are places left. -/
def integral (zeros : Nat) : Literal where
  negative := false
  integer := all ++ List.replicate zeros '0'
  places := some ['0']
  power := none
  integer_run := ⟨by simp [all_run.1], List.forall_mem_append.2 ⟨all_run.2, isDigit_of_mem_zeros⟩⟩
  unpadded padded := by
    rw [List.head?_append, Option.or_of_isSome (by simp [all_run.1])] at padded
    exact absurd padded first
  places_run := by
    rintro run ⟨⟩
    exact isRun_zero
  power_run := nofun

/-- Digits on both sides of the point, the given number of them in front. -/
def pointed (count : Nat) (some : count ≠ 0) (inside : count < all.length) : Literal where
  negative := false
  integer := all.take count
  places := .some (all.drop count)
  power := none
  integer_run := isRun_take all_run some
  unpadded padded := by
    rw [List.head?_take, if_neg some] at padded
    exact absurd padded first
  places_run := by
    rintro run ⟨⟩
    exact isRun_drop all_run inside
  power_run := nofun

def scientific (down : Bool) (power : Nat) : Literal where
  negative := false
  integer := all.take 1
  places := if all.length = 1 then none else some (all.drop 1)
  power := some (down, digits power)
  integer_run := isRun_take all_run Nat.one_ne_zero
  unpadded padded := by
    rw [List.head?_take, if_neg Nat.one_ne_zero] at padded
    exact absurd padded first
  places_run := by
    intro run member
    have length := List.length_pos_iff.2 all_run.1
    split at member
    · cases member
    · cases member
      exact isRun_drop all_run (by omega)
  power_run := by
    rintro entry ⟨⟩
    exact isRun_digits power

theorem exists_text (style : Decimal.Style) {decimal : Decimal}
    (positive : decimal.coefficient ≠ 0) :
    ∃ literal : Literal, literal.negative = false ∧ literal.text = decimal.text style := by
  have all_run := isRun_digits decimal.coefficient
  have first := Decimal.head?_digits_ne_zero positive
  unfold Decimal.text
  generalize digits decimal.coefficient = all at *
  dsimp only
  generalize decimal.exponent + all.length - 1 = leading
  by_cases positional : style.lowest ≤ leading ∧ leading ≤ style.highest
  · rw [if_pos positional]
    split_ifs with below filled
    · refine ⟨small all_run (-leading - 1).toNat, rfl, ?_⟩
      simp [text, small, placesText, powerText]
    · refine ⟨integral all_run first (leading.toNat + 1 - all.length), rfl, ?_⟩
      simp [text, integral, placesText, powerText]
    · refine ⟨pointed all_run first _ (Nat.succ_ne_zero _) (Nat.not_le.1 filled), rfl, ?_⟩
      simp [text, pointed, placesText, powerText]
  · rw [if_neg positional]
    refine ⟨scientific all_run first (leading < 0) leading.natAbs, rfl, ?_⟩
    by_cases single : all.length = 1 <;>
      simp [text, scientific, placesText, powerText, single]

/-- The written form of a double, also of one that is not finite. -/
theorem exists_floatText (style : Decimal.Style) (x : Binary64) :
    ∃ literal : Literal, literal.text = Decimal.floatText style x := by
  obtain ⟨magnitude, unsigned, written⟩ : ∃ literal : Literal, literal.negative = false ∧
      literal.text = if x.magnitude.toNat = 0 then ['0', '.', '0']
        else (Decimal.shortest x.magnitude.toNat).text style := by
    split
    next => exact ⟨zero, rfl, rfl⟩
    next positive => exact exists_text style (Decimal.coefficient_shortest positive)
  refine ⟨magnitude.signed x.isNegative, ?_⟩
  rw [text_signed _ unsigned, written]
  rfl

end Literal

end TruckDrone.Json
