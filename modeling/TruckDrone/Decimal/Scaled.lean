import TruckDrone.Decimal.Nearest

/-! Reading decimals by steps: the coefficient becomes a double, which is then multiplied
or divided by powers of ten. Every step is rounded, so the outcome is the nearest double
where the steps are exact and may lie beside it elsewhere. -/

set_option autoImplicit false

namespace TruckDrone.Decimal

def highestPower : Nat := 308

def powerOfTen (power : Nat) : Nat := nearest ⟨1, power⟩

def product (first second : Nat) : Nat :=
  nearestToFraction (halfUnits first * halfUnits second) (1 <<< 2150)

def quotient (dividend divisor : Nat) : Nat :=
  nearestToFraction (halfUnits dividend) (halfUnits divisor)

def raise (bits power : Nat) : Nat :=
  if power ≤ highestPower then product bits (powerOfTen power)
  -- Only zero withstands a power that is no double.
  else if bits = 0 then 0 else infinityBits

def lower (bits places : Nat) : Nat :=
  if places ≤ highestPower then quotient bits (powerOfTen places)
  -- One power of ten does not suffice, and beyond two of them nothing is left.
  else if places ≤ 2 * highestPower then
    quotient (quotient bits (powerOfTen highestPower)) (powerOfTen (places - highestPower))
  else 0

def scaled (decimal : Decimal) : Nat :=
  let bits := nearest ⟨decimal.coefficient, 0⟩
  if 0 ≤ decimal.exponent then raise bits decimal.exponent.toNat
  else lower bits (-decimal.exponent).toNat

end TruckDrone.Decimal
