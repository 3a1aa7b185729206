import TruckDrone.Scalar

/-! Locations to be visited. Location 0 is the depot. -/

set_option autoImplicit false

namespace TruckDrone

def depotId : Nat := 0

structure Customer (K : Type) where
  id : Nat
  x : K
  y : K
  dronable : Bool
  deriving DecidableEq, Repr

namespace Customer

variable {K : Type}

def depot (x y : K) : Customer K := ⟨depotId, x, y, false⟩

variable [Scalar K]

def distanceTo (start finish : Customer K) : K :=
  let dx := start.x - finish.x
  let dy := start.y - finish.y
  Scalar.sqrt (dx * dx + dy * dy)

/-- Agreement in all four fields, coordinates compared as numbers. -/
def same (first second : Customer K) : Bool :=
  first.id == second.id && Scalar.same first.x second.x && Scalar.same first.y second.y &&
    first.dronable == second.dronable

end Customer

end TruckDrone
