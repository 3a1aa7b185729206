/-! The arithmetic that distances, times and costs need. No law is assumed of it:
the same definitions run on doubles and can be read over exact numbers. -/

set_option autoImplicit false

namespace TruckDrone

class Scalar (K : Type) extends Zero K, One K, Add K, Sub K, Mul K, Div K where
  sqrt : K → K
  /-- The larger of two numbers; a value that is no number yields to one that is. -/
  larger : K → K → K
  infinity : K
  isFinite : K → Bool
  less : K → K → Bool
  same : K → K → Bool
  tolerance : K

class Ranked (K : Type) where
  rank : K → Int

namespace Scalar

variable {K : Type} [Scalar K]

def sum (terms : List K) : K := terms.foldl (· + ·) 0

def undercuts (candidate incumbent : K) : Bool := less (candidate + tolerance) incumbent

end Scalar

end TruckDrone
