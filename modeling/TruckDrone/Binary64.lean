import TruckDrone.Scalar

/-! Doubles kept as all of their 64 bits. Arithmetic is that of `Float`; the bits
also tell apart the values that are no numbers, which the total order ranks by sign. -/

set_option autoImplicit false

namespace TruckDrone

structure Binary64 where
  bits : UInt64
  deriving DecidableEq, Repr

namespace Binary64

def toFloat (x : Binary64) : Float := Float.ofBits x.bits

def ofFloat (x : Float) : Binary64 := ⟨x.toBits⟩

def ofNat (n : Nat) : Binary64 := ofFloat (Float.ofNat n)

def isNegative (x : Binary64) : Bool := 0x8000000000000000 ≤ x.bits

def magnitude (x : Binary64) : UInt64 := x.bits &&& 0x7fffffffffffffff

def isNaN (x : Binary64) : Bool := 0x7ff0000000000000 < x.magnitude

def isFinite (x : Binary64) : Bool := x.magnitude < 0x7ff0000000000000

def withSign (magnitude : UInt64) (negative : Bool) : Binary64 :=
  ⟨if negative then magnitude ||| 0x8000000000000000 else magnitude⟩

def infinity : Binary64 := ⟨0x7ff0000000000000⟩

/-- The value of an operation that has none, such as infinity less infinity. -/
def undefined : Binary64 := ⟨0xfff8000000000000⟩

def quiet (x : Binary64) : Binary64 := ⟨x.bits ||| 0x0008000000000000⟩

def result (x : Float) : Binary64 := if x.isNaN then undefined else ofFloat x

/-- An operand that is no number is handed on; otherwise the operation decides. -/
def combine (operation : Float → Float → Float) (x y : Binary64) : Binary64 :=
  if x.isNaN then x.quiet
  else if y.isNaN then y.quiet
  else result (operation x.toFloat y.toFloat)

def sqrt (x : Binary64) : Binary64 := if x.isNaN then x.quiet else result x.toFloat.sqrt

def less (x y : Binary64) : Bool := x.toFloat < y.toFloat

def larger (x y : Binary64) : Binary64 := if x.isNaN then y else if less x y then y else x

/-- Position in the total order of all doubles, where -0 lies just below +0 and the
values that are no numbers lie beyond the infinity of their sign. -/
def rank (x : Binary64) : Int :=
  if x.isNegative then 0x7fffffffffffffff - (x.bits.toNat : Int) else x.bits.toNat

instance : Scalar Binary64 where
  zero := ⟨0⟩
  one := ⟨0x3ff0000000000000⟩
  add := combine (· + ·)
  sub := combine (· - ·)
  mul := combine (· * ·)
  div := combine (· / ·)
  sqrt := sqrt
  larger := larger
  infinity := infinity
  isFinite := isFinite
  less := less
  same x y := x.toFloat == y.toFloat
  tolerance := ⟨0x3eb0c6f7a0b5ed8d⟩

instance : Ranked Binary64 := ⟨rank⟩

end Binary64

end TruckDrone
