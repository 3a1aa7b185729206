import Mathlib.Algebra.Ring.Nat
import TruckDrone.Decimal.Scaled
import TruckDrone.Decimal.Text

/-! Bounds on decimals and on the doubles nearest to them. Positive numbers are written without
zeros in front, and natural numbers of 64 bits are read as finite doubles. -/

set_option autoImplicit false

namespace TruckDrone.Decimal

theorem head?_digits_ne_zero {n : Nat} (positive : n ≠ 0) : (digits n).head? ≠ some '0' := by
  induction n using Nat.strongRecOn with
  | ind n shorter =>
    rw [digits]
    split
    next small =>
      have other : ∀ digit < 10, digit ≠ 0 → digitChar digit ≠ '0' := by decide
      exact fun same => other n small positive (Option.some.inj same)
    next large =>
      intro first
      rw [List.head?_append, Option.or_of_isSome (by simp [digits_ne_nil])] at first
      exact shorter (n / 10) (by omega) (by omega) first

theorem appendBelow_lt {bound number : Nat} (inside : number < bound) (run : List Char) :
    (appendBelow bound number run).1 < bound := by
  induction run generalizing number with
  | nil => exact inside
  | cons digit rest ih =>
    rw [appendBelow]
    split
    next fits => exact ih fits
    next => exact inside

theorem halfUnits_pos {bits : Nat} (positive : bits ≠ 0) : 0 < halfUnits bits := by
  obtain ⟨smaller, rfl⟩ := Nat.exists_eq_succ_of_ne_zero positive
  exact Nat.zero_lt_of_lt (halfUnits_lt_succ smaller)

theorem coefficient_exact {bits : Nat} (positive : bits ≠ 0) : (exact bits).coefficient ≠ 0 := by
  have power : ∀ places, Nat.pow 5 places ≠ 0 := fun _ => Nat.ne_of_gt (Nat.pow_pos (by decide))
  exact Nat.mul_ne_zero (Nat.ne_of_gt (halfUnits_pos positive)) (power 1075)

theorem coefficient_shortest {bits : Nat} (positive : bits ≠ 0) :
    (shortest bits).coefficient ≠ 0 := by
  rw [shortest]
  cases found : (List.range' 1 17).findSome? fun digits =>
      (candidates bits digits).find? fun decimal => decimal.nearest = bits with
  | none => exact coefficient_exact positive
  | some decimal =>
    obtain ⟨digits, -, chosen⟩ := List.exists_of_findSome?_eq_some found
    have read : decimal.nearest = bits := by simpa using List.find?_some chosen
    intro zero
    obtain ⟨coefficient, exponent⟩ := decimal
    cases zero
    exact positive read.symm

theorem halfUnits_octave {exponent : Nat} (normal : exponent ≠ 0) :
    halfUnits (exponent * octave) = 2 ^ (52 + exponent) := by
  have positive : 0 < octave := by decide
  rw [halfUnits, Nat.mul_div_cancel _ positive, Nat.mul_mod_left, if_neg normal,
    Nat.shiftLeft_eq, Nat.add_zero, Nat.pow_add]
  rfl

theorem lt_of_halfUnits_lt {first second : Nat} (ordered : halfUnits first < halfUnits second) :
    first < second :=
  Nat.lt_of_not_le fun other => Nat.not_le.2 ordered (halfUnits_le other)

theorem shiftLeft_lt {numerator denominator width : Nat}
    (below : numerator < 2 ^ width * denominator) (power : Nat) :
    numerator <<< power < 2 ^ (width + power) * denominator := by
  rw [Nat.shiftLeft_eq, Nat.pow_add, Nat.mul_right_comm]
  exact Nat.mul_lt_mul_of_pos_right below (Nat.two_pow_pos power)

/-- The bits of `2 ^ width` lie `1023 + width` octaves above zero, and a fraction below that power
is read as that double at most. -/
theorem nearestToFraction_le {numerator denominator width : Nat}
    (below : numerator < 2 ^ width * denominator) :
    nearestToFraction numerator denominator ≤ (1023 + width) * octave := by
  have start : halfUnits 0 * denominator ≤ numerator <<< 1075 := by
    rw [show halfUnits 0 = 0 from rfl, Nat.zero_mul]
    exact Nat.zero_le _
  have fits := of_decide_eq_true
    (@fits_greatest (fun bits => halfUnits bits * denominator ≤ numerator <<< 1075) 63 0
      (decide_eq_true start))
  have above : numerator <<< 1075 < halfUnits ((1023 + width) * octave) * denominator := by
    have scale : 52 + (1023 + width) = width + 1075 := by omega
    rw [halfUnits_octave (by omega), scale]
    exact shiftLeft_lt below 1075
  have inside := lt_of_halfUnits_lt (Nat.lt_of_mul_lt_mul_right (Nat.lt_of_le_of_lt fits above))
  rw [nearestToFraction]
  refine Nat.le_trans (Nat.min_le_left ..) ?_
  split
  · exact Nat.le_of_lt inside
  split
  · exact inside
  split
  · exact Nat.le_of_lt inside
  · exact inside

theorem nearest_natural_le {n width : Nat} (fits : n < 2 ^ width) :
    nearest ⟨n, 0⟩ ≤ (1023 + width) * octave := by
  rw [nearest]
  split
  · exact Nat.zero_le _
  split
  next far => exact absurd far (Int.not_lt.2 (by decide : (0 : Int) ≤ 400))
  split
  · exact Nat.zero_le _
  · exact nearestToFraction_le (Nat.mul_lt_mul_of_pos_right fits Nat.one_pos)

theorem mul_lt_two_pow {first second firstWidth secondWidth width power : Nat}
    (firstFits : first ≤ 2 ^ firstWidth) (secondFits : second ≤ 2 ^ secondWidth)
    (wide : firstWidth + secondWidth < width + power) :
    first * second < 2 ^ width * 1 <<< power := by
  rw [Nat.shiftLeft_eq, Nat.one_mul, ← Nat.pow_add]
  calc first * second ≤ 2 ^ firstWidth * 2 ^ secondWidth := Nat.mul_le_mul firstFits secondFits
    _ = 2 ^ (firstWidth + secondWidth) := (Nat.pow_add ..).symm
    _ < 2 ^ (width + power) := Nat.pow_lt_pow_right Nat.one_lt_two wide

theorem product_le {first second firstWidth secondWidth : Nat}
    (firstFits : first ≤ (1023 + firstWidth) * octave)
    (secondFits : second ≤ (1023 + secondWidth) * octave) :
    product first second ≤ (1023 + (firstWidth + secondWidth + 1)) * octave := by
  have value : ∀ {bits width : Nat}, bits ≤ (1023 + width) * octave →
      halfUnits bits ≤ 2 ^ (52 + (1023 + width)) := by
    intro bits width inside
    have normal : 1023 + width ≠ 0 := by omega
    exact halfUnits_octave normal ▸ halfUnits_le inside
  exact nearestToFraction_le (mul_lt_two_pow (value firstFits) (value secondFits) (by omega))

theorem powerOfTen_zero_le : powerOfTen 0 ≤ (1023 + 1) * octave := by
  rw [powerOfTen]
  exact nearest_natural_le (by decide)

theorem scaled_natural_lt {n : Nat} (fits : n < 2 ^ 64) : (mk n 0).scaled < infinityBits := by
  have bound := product_le (nearest_natural_le fits) powerOfTen_zero_le
  rw [scaled, if_pos (Int.le_refl 0), Int.toNat_zero, raise, if_pos (Nat.zero_le _)]
  exact Nat.lt_of_le_of_lt bound (by decide)

end TruckDrone.Decimal
