/-! Reading decimals: the double nearest to a decimal number, found by comparing exact
integers. A double is treated by its bits without the sign, which are ordered as the
values are. -/

set_option autoImplicit false

namespace TruckDrone

/-- The number `coefficient * 10 ^ exponent`. -/
structure Decimal where
  coefficient : Nat
  exponent : Int
  deriving DecidableEq, Repr

namespace Decimal

def infinityBits : Nat := 0x7ff0000000000000

def octave : Nat := 0x10000000000000

/-- The value of a double in units of 2^-1075, half of the smallest positive double. The
bits of infinity count as the next power of two. -/
def halfUnits (bits : Nat) : Nat :=
  let exponent := bits / octave
  let fraction := bits % octave
  if exponent = 0 then 2 * fraction else (octave + fraction) <<< exponent

/-- The greatest number below `base + 2 ^ width` that fits, given that `base` does and
that all numbers below one that fits do. -/
def greatest (fits : Nat → Bool) (base : Nat) : (width : Nat) → Nat
  | 0 => base
  | width + 1 =>
    if fits (base + 1 <<< width) then greatest fits (base + 1 <<< width) width
    else greatest fits base width

theorem fits_greatest {fits : Nat → Bool} (width : Nat) :
    ∀ base, fits base → fits (greatest fits base width) := by
  induction width with
  | zero => exact fun _ start => start
  | succ width narrower =>
    intro base start
    rw [greatest]
    split
    · rename_i further
      exact narrower _ further
    · exact narrower _ start

theorem halfUnits_lt_succ (bits : Nat) : halfUnits bits < halfUnits (bits + 1) := by
  unfold halfUnits octave
  simp only [Nat.shiftLeft_eq]
  by_cases wrap : (bits + 1) % 0x10000000000000 = 0
  · have exponent : (bits + 1) / 0x10000000000000 = bits / 0x10000000000000 + 1 := by omega
    have fraction : bits % 0x10000000000000 = 0x10000000000000 - 1 := by omega
    rw [exponent, fraction, wrap, if_neg (Nat.succ_ne_zero _)]
    split
    · rename_i subnormal
      simp [subnormal]
    · have := Nat.two_pow_pos (bits / 0x10000000000000)
      rw [Nat.pow_succ]
      omega
  · have exponent : (bits + 1) / 0x10000000000000 = bits / 0x10000000000000 := by omega
    have fraction : (bits + 1) % 0x10000000000000 = bits % 0x10000000000000 + 1 := by omega
    rw [exponent, fraction]
    split
    · omega
    · exact Nat.mul_lt_mul_of_pos_right (by omega) (Nat.two_pow_pos _)

theorem halfUnits_le {first second : Nat} (ordered : first ≤ second) :
    halfUnits first ≤ halfUnits second := by
  induction ordered with
  | refl => exact Nat.le_refl _
  | step _ below => exact Nat.le_trans below (Nat.le_of_lt (halfUnits_lt_succ _))

/-- The bits of the double nearest to a fraction, the even one of two equally near. From
half a unit beyond the largest finite double on that is infinity. -/
def nearestToFraction (numerator denominator : Nat) : Nat :=
  let scaled := numerator <<< 1075
  let below := greatest (fun bits => halfUnits bits * denominator ≤ scaled) 0 63
  let middle := (halfUnits below + halfUnits (below + 1)) * denominator
  let chosen :=
    if 2 * scaled < middle then below
    else if middle < 2 * scaled then below + 1
    else if below % 2 = 0 then below else below + 1
  min chosen infinityBits

/-- The bits of the double nearest to a decimal. Beyond 10^400 and below 10^-400 the
answer is plain and powers of ten need not be formed. -/
def nearest (decimal : Decimal) : Nat :=
  if decimal.coefficient = 0 then 0
  else if 400 < decimal.exponent then infinityBits
  else if decimal.exponent + decimal.coefficient.log2 + 1 < -400 then 0
  else nearestToFraction (decimal.coefficient * Nat.pow 10 decimal.exponent.toNat)
    (Nat.pow 10 (-decimal.exponent).toNat)

end Decimal

end TruckDrone
