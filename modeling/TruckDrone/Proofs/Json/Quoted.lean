import Mathlib.Tactic.SplitIfs
import TruckDrone.Json.Quoted
import TruckDrone.Proofs.Json.Reader

/-! Quoted text is read back as the text it was written for, whatever its characters are. -/

set_option autoImplicit false

namespace TruckDrone.Json.Quoted

open Reader

theorem hexValue?_hexDigit : ∀ digit < 16, hexValue? (hexDigit digit) = some digit := by decide

theorem run_digit {digit : Nat} (fits : digit < 16) (value : Nat) (rest : List Char) :
    Reader.run (do
      match hexValue? (← take) with
      | some digit => return 16 * value + digit
      | none => refuse .malformed) (hexDigit digit :: rest) = .ok (16 * value + digit, rest) := by
  rw [run_bind_ok (run_take ..), hexValue?_hexDigit digit fits]
  exact run_pure _ _

theorem run_codeUnit {first second third fourth : Nat} (firstFits : first < 16)
    (secondFits : second < 16) (thirdFits : third < 16) (fourthFits : fourth < 16)
    (rest : List Char) :
    codeUnit.run (hexDigit first :: hexDigit second :: hexDigit third :: hexDigit fourth :: rest) =
      .ok (16 * (16 * (16 * (16 * 0 + first) + second) + third) + fourth, rest) := by
  simp only [codeUnit, List.foldlM_cons, List.foldlM_nil]
  refine (run_bind_ok (run_digit firstFits ..) _).trans ?_
  refine (run_bind_ok (run_digit secondFits ..) _).trans ?_
  refine (run_bind_ok (run_digit thirdFits ..) _).trans ?_
  refine (run_bind_ok (run_digit fourthFits ..) _).trans ?_
  exact run_pure _ _

theorem run_codePoint {c : Char} (control : c.toNat < 0x20) (rest : List Char) :
    codePoint.run ('0' :: '0' :: hexDigit (c.toNat / 16) :: hexDigit (c.toNat % 16) :: rest) =
      .ok (c, rest) := by
  have unit : codeUnit.run
      ('0' :: '0' :: hexDigit (c.toNat / 16) :: hexDigit (c.toNat % 16) :: rest) =
        .ok (c.toNat, rest) := by
    have value : 16 * (16 * (16 * (16 * 0 + 0) + 0) + c.toNat / 16) + c.toNat % 16 = c.toNat := by
      omega
    have read := @run_codeUnit 0 0 (c.toNat / 16) (c.toNat % 16) (by decide) (by decide)
      (by omega) (by omega) rest
    rw [value] at read
    exact read
  rw [codePoint, run_bind_ok unit, if_neg (by omega), if_neg (by omega), Char.ofNat_toNat]
  rfl

theorem run_rest_escape {escaping left : List Char} {c : Char}
    (done : (escape codePoint).run escaping = .ok (c, left)) :
    rest.run ('\\' :: escaping) =
      (rest.run left).map fun taken => (c :: taken.1, taken.2) := by
  unfold rest run at *
  rw [read]
  cases taken : escape codePoint escaping with
  | error refusal => simp [taken, Except.map] at done
  | ok answer =>
    simp only [taken, Except.map, Except.ok.injEq, Prod.mk.injEq] at done
    obtain ⟨rfl, rfl⟩ := done
    dsimp only
    cases read codePoint answer.rest <;> rfl

theorem run_rest_plain {c : Char} (quote : c ≠ '"') (backslash : c ≠ '\\')
    (shown : ¬ c.toNat < 0x20) (left : List Char) :
    rest.run (c :: left) = (rest.run left).map fun taken => (c :: taken.1, taken.2) := by
  unfold rest run
  rw [read, if_neg shown]
  · cases read codePoint left <;> rfl
  · exact quote
  · exact backslash

theorem run_rest_escaped (c : Char) (left : List Char) :
    rest.run (escaped c ++ left) =
      (rest.run left).map fun taken => (c :: taken.1, taken.2) := by
  unfold escaped
  split_ifs with quote backslash _ _ _ _ _ control
  -- A character with an escape of its own is known, and so is the escape.
  any_goals
    subst c
    exact run_rest_escape rfl
  · exact run_rest_escape
      ((run_bind_ok (run_take 'u' _) _).trans (run_codePoint control left))
  · exact run_rest_plain quote backslash control left

theorem run_rest (text left : List Char) :
    rest.run (text.flatMap escaped ++ '"' :: left) = .ok (text, left) := by
  induction text with
  | nil =>
    unfold rest run
    rw [List.flatMap_nil, List.nil_append, read]
    rfl
  | cons c others ih =>
    rw [List.flatMap_cons, List.append_assoc, run_rest_escaped, ih]
    rfl

end TruckDrone.Json.Quoted
