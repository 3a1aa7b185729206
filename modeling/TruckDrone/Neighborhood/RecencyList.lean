import TruckDrone.Neighborhood.Edge

/-! The edges touched most recently, up to a capacity. -/

set_option autoImplicit false

namespace TruckDrone

structure RecencyList where
  capacity : Nat
  entries : List Edge
  deriving DecidableEq, Repr

namespace RecencyList

def empty (capacity : Nat) : RecencyList := ⟨capacity, []⟩

/-- Makes an edge the latest. A new edge in a full list evicts the oldest one. -/
def touch (list : RecencyList) (edge : Edge) : RecencyList :=
  if edge ∈ list.entries then { list with entries := list.entries.erase edge ++ [edge] }
  else
    let grown := list.entries ++ [edge]
    { list with entries := if list.capacity < grown.length then grown.tail else grown }

def contains (list : RecencyList) (edge : Edge) : Bool := edge ∈ list.entries

def latest? (list : RecencyList) : Option Edge := list.entries.getLast?

def size (list : RecencyList) : Nat := list.entries.length

def isEmpty (list : RecencyList) : Bool := list.entries.isEmpty

def clear (list : RecencyList) : RecencyList := { list with entries := [] }

@[simp] theorem capacity_touch (list : RecencyList) (edge : Edge) :
    (list.touch edge).capacity = list.capacity := by
  unfold touch
  split <;> rfl

end RecencyList

end TruckDrone
