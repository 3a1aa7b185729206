import TruckDrone.Decimal.Scaled
import TruckDrone.Decimal.Text
import TruckDrone.Json.Reader

/-! Number literals, kept as decimals until it is known what they are read for. -/

set_option autoImplicit false

namespace TruckDrone.Json

/-- A number literal with the digits that fit into 64 bits; `whole` if these are all and
there is neither a fraction nor an exponent. -/
structure Numeral where
  negative : Bool
  whole : Bool
  magnitude : Decimal
  deriving DecidableEq, Repr

namespace Numeral

open Reader

def digits : Reader (List Char) := do
  let run ← takeAll Char.isDigit
  if run.isEmpty then refuse .malformed else return run

def fraction : Reader (Option (List Char)) := do
  if (← peek) = some '.' then
    advance
    some <$> digits
  else return none

def exponent : Reader (Option Int) := do
  let marked := (← peek) = some 'e' || (← peek) = some 'E'
  if marked then
    advance
    let sign ← peek
    if sign = some '-' || sign = some '+' then advance
    let power := Decimal.value (← digits)
    return some (if sign = some '-' then -(power : Int) else power)
  else return none

/-- The decimal of an integer part and the digits behind the point. Either sequence is
kept up to the first digit that takes the coefficient beyond 64 bits; a digit of the
integer part that is passed over still counts as a place. -/
def kept (integer places : List Char) : Decimal :=
  let (front, passed) := Decimal.appendBelow UInt64.size 0 integer
  let (coefficient, lost) := Decimal.appendBelow UInt64.size front places
  ⟨coefficient, passed.length + lost.length - places.length⟩

/-- A literal at the front of the text. Its integer part has no leading zero. -/
def read : Reader Numeral := do
  let negative := (← peek) = some '-'
  if negative then advance
  let integer ← digits
  if integer.head? = some '0' && 1 < integer.length then refuse .malformed
  else
    let behind ← fraction
    let power ← exponent
    let decimal := kept integer (behind.getD [])
    return {
      negative
      whole := behind.isNone && power.isNone && Decimal.value integer < UInt64.size
      magnitude := { decimal with exponent := decimal.exponent + power.getD 0 } }

def readFinite : Reader Numeral := do
  let numeral ← read
  if numeral.magnitude.scaled = Decimal.infinityBits then refuse .malformed else return numeral

def toNat? (numeral : Numeral) : Option Nat :=
  if numeral.whole && !numeral.negative then some numeral.magnitude.coefficient else none

def toBinary64 (numeral : Numeral) : Binary64 :=
  .withSign (UInt64.ofNat numeral.magnitude.scaled) numeral.negative

end Numeral

end TruckDrone.Json
