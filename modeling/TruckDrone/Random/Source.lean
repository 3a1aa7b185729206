/-! Sources of randomness, reduced to the two requests that construction makes. -/

set_option autoImplicit false

namespace TruckDrone

class RandomSource (σ : Type) where
  shuffle : List Nat → σ → List Nat × σ
  /-- A number below a positive bound. -/
  below : Nat → σ → Nat × σ

end TruckDrone
