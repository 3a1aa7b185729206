import TruckDrone.Binary64
import TruckDrone.Decimal.Digits
import TruckDrone.Decimal.Shortest

/-! The text of doubles, in positional or scientific form. -/

set_option autoImplicit false

namespace TruckDrone.Decimal

/-- Which doubles are written positionally: those whose leading digit stands for a power
of ten in this range. -/
structure Style where
  lowest : Int
  highest : Int

def Style.report : Style := ⟨-5, 15⟩

/-- A positive decimal. Positional text always has a point; scientific text has none
after a single digit, and its exponent always has a sign. -/
def text (style : Style) (decimal : Decimal) : List Char :=
  let all := digits decimal.coefficient
  let leading := decimal.exponent + all.length - 1
  if style.lowest ≤ leading ∧ leading ≤ style.highest then
    if leading < 0 then
      ['0', '.'] ++ List.replicate (-leading - 1).toNat '0' ++ all
    else
      let places := leading.toNat + 1
      if all.length ≤ places then
        all ++ List.replicate (places - all.length) '0' ++ ['.', '0']
      else all.take places ++ ['.'] ++ all.drop places
  else
    all.take 1 ++ (if all.length = 1 then [] else '.' :: all.drop 1) ++
      ['e', if leading < 0 then '-' else '+'] ++ digits leading.natAbs

def floatText (style : Style) (x : Binary64) : List Char :=
  let magnitude := x.magnitude.toNat
  (if x.isNegative then ['-'] else []) ++
    if magnitude = 0 then ['0', '.', '0'] else (shortest magnitude).text style

end TruckDrone.Decimal
