import TruckDrone.Decimal.Nearest

/-! Writing doubles: the decimal with the fewest digits to which no other double is
nearer, and of those the one nearest to the double. -/

set_option autoImplicit false

namespace TruckDrone.Decimal

def leadingExponent (bits : Nat) : Int :=
  (greatest (fun n => Nat.pow 10 n <<< 1075 ≤ halfUnits bits * Nat.pow 10 400) 0 10 : Nat) - 400

/-- The two neighbors of the value among the multiples of a power of ten, the nearer one
first and the even one at a tie. -/
def neighbors (bits : Nat) (exponent : Int) : List Decimal :=
  let numerator := halfUnits bits * Nat.pow 10 (-exponent).toNat
  let denominator := Nat.pow 10 exponent.toNat <<< 1075
  let below := numerator / denominator
  let rest := numerator % denominator
  let lower : Decimal := ⟨below, exponent⟩
  let upper : Decimal := ⟨below + 1, exponent⟩
  if 2 * rest < denominator then [lower, upper]
  else if denominator < 2 * rest then [upper, lower]
  else if below % 2 = 0 then [lower, upper] else [upper, lower]

def exact (bits : Nat) : Decimal := ⟨halfUnits bits * Nat.pow 5 1075, -1075⟩

def trim (decimal : Decimal) : Decimal :=
  if _zero : decimal.coefficient ≠ 0 ∧ decimal.coefficient % 10 = 0 then
    trim ⟨decimal.coefficient / 10, decimal.exponent + 1⟩
  else decimal
  termination_by decimal.coefficient

def candidates (bits digits : Nat) : List Decimal :=
  (neighbors bits (leadingExponent bits - (digits - 1 : Nat))).map trim

def shortest (bits : Nat) : Decimal :=
  let found := (List.range' 1 17).findSome? fun digits =>
    (candidates bits digits).find? fun decimal => decimal.nearest = bits
  -- Seventeen digits always suffice; the exact value stands in case they did not.
  found.getD (exact bits)

end TruckDrone.Decimal
