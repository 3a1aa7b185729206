/-! Requests on positions that an operation refuses instead of answering. -/

set_option autoImplicit false

namespace TruckDrone

inductive Fault where
  | outOfRange (position size : Nat)
  | overlap (start length size : Nat)
  deriving Repr, DecidableEq

def Fault.message : Fault → String
  | .outOfRange position size => s!"position {position} is outside a sequence of {size}"
  | .overlap start length size =>
    s!"segment {start}+{length} overlaps the depot of a route of length {size}"

end TruckDrone
