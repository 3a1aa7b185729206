import TruckDrone.Customer
import TruckDrone.Sequence

/-! Travel distances between all pairs of locations, in either direction. -/

set_option autoImplicit false

namespace TruckDrone

/-- A square table, kept row after row; row `i` holds the distances out of location `i`. -/
structure DistanceTable (K : Type) where
  size : Nat
  cells : Vector K (size * size)

namespace DistanceTable

variable {K : Type}

def place (table : DistanceTable K) (start finish : Nat) : Nat := start * table.size + finish

def get (table : DistanceTable K) (start finish : Nat) : Except Fault K :=
  if inside : table.place start finish < table.size * table.size then
    .ok (table.cells[table.place start finish])
  -- Only the place is checked, so a finish beyond the last column reads on into the next row.
  else .error (.outOfRange (table.place start finish) (table.size * table.size))

def set (table : DistanceTable K) (start finish : Nat) (distance : K) :
    Except Fault (DistanceTable K) :=
  if inside : table.place start finish < table.size * table.size then
    .ok { table with cells := table.cells.set (table.place start finish) distance }
  else .error (.outOfRange (table.place start finish) (table.size * table.size))

theorem place_lt (table : DistanceTable K) {start finish : Nat}
    (row : start < table.size) (column : finish < table.size) :
    table.place start finish < table.size * table.size :=
  calc table.place start finish < start * table.size + table.size := Nat.add_lt_add_left column _
    _ = (start + 1) * table.size := (Nat.succ_mul ..).symm
    _ ≤ table.size * table.size := Nat.mul_le_mul_right _ row

def get? (table : DistanceTable K) (start finish : Nat) : Option K :=
  if inside : start < table.size ∧ finish < table.size then
    have := table.place_lt inside.1 inside.2
    some (table.cells[table.place start finish])
  else none

def ofRows? (size : Nat) (distances : List K) : Option (DistanceTable K) :=
  if square : distances.length = size * size then
    some ⟨size, ⟨distances.toArray, by simpa using square⟩⟩
  else none

def rows (table : DistanceTable K) : List (List K) :=
  (List.range table.size).map fun start =>
    (List.range table.size).filterMap (table.get? start)

variable [Scalar K]

def zero (size : Nat) : DistanceTable K := ⟨size, Vector.replicate _ 0⟩

/-- Straight-line distances. Both directions of a pair hold the distance measured from
the earlier location; the diagonal is zero. -/
def ofCustomers (customers : List (Customer K)) : DistanceTable K where
  size := customers.length
  cells := Vector.ofFn fun place =>
    have positive : 0 < customers.length := Nat.pos_of_ne_zero fun empty => by
      simpa [empty] using place.isLt
    have row := Nat.div_lt_of_lt_mul place.isLt
    have column := Nat.mod_lt place.val positive
    if place.val / customers.length < place.val % customers.length then
      customers[place.val / customers.length].distanceTo customers[place.val % customers.length]
    else if place.val % customers.length < place.val / customers.length then
      customers[place.val % customers.length].distanceTo customers[place.val / customers.length]
    else 0

end DistanceTable

end TruckDrone
