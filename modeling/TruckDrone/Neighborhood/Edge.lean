import TruckDrone.Decimal.Digits

/-! Edges between two stops, as the two-opt operator remembers them. -/

set_option autoImplicit false

namespace TruckDrone

/-- A pair of stops. `Edge.between` orders them; a pair that was read as it stands may
have them in either order. -/
structure Edge where
  first : Nat
  second : Nat
  deriving DecidableEq, Repr

namespace Edge

def between (a b : Nat) : Edge := ⟨min a b, max a b⟩

/-- From the depot to the depot: the edge of a move that has none. -/
def trivial : Edge := ⟨0, 0⟩

def isTrivial (edge : Edge) : Bool := edge.first == 0 && edge.second == 0

def text (edge : Edge) : String :=
  .ofList (Decimal.digits edge.first ++ '-' :: Decimal.digits edge.second)

theorem between_comm (a b : Nat) : between a b = between b a := by
  simp [between, Nat.min_comm, Nat.max_comm]

theorem between_eq_trivial {a b : Nat} : between a b = trivial ↔ a = 0 ∧ b = 0 := by
  simp only [between, trivial, mk.injEq]
  omega

theorem isTrivial_iff {edge : Edge} : edge.isTrivial ↔ edge = trivial := by
  cases edge
  simp [isTrivial, trivial]

end Edge

end TruckDrone
