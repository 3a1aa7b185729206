import TruckDrone.Plan

/-! Routing problems as the search sees them: locations, fleet and a price for plans. -/

set_option autoImplicit false

namespace TruckDrone

/-- A routing problem. Nothing is assumed of the price, lower being better, nor of
the customer table beyond its order: the entry at position `i` is location `i`. -/
structure Problem (K : Type) where
  customers : List (Customer K)
  trucks : Nat
  drones : Nat
  /-- Capacity of the recency list that the two-opt operator keeps. -/
  recency : Nat
  price : Plan → K

structure Solution (K : Type) where
  plan : Plan
  cost : K

namespace Problem

variable {K : Type}

def size (problem : Problem K) : Nat := problem.customers.length

def customerCount (problem : Problem K) : Nat := problem.size - 1

def vehicleCount (problem : Problem K) : Nat := problem.trucks + problem.drones

def fleet (problem : Problem K) : List Vehicle := TruckDrone.fleet problem.trucks problem.drones

/-- Whether a drone may serve the location; an id outside the table is a fault. -/
def dronable (problem : Problem K) (id : Nat) : Except Fault Bool :=
  (Sequence.entry problem.customers id).map Customer.dronable

def admits (problem : Problem K) (vehicle : Vehicle) (id : Nat) : Except Fault Bool :=
  -- Only for customers of a drone is the table asked.
  if vehicle.isDrone && id != depotId then problem.dronable id else .ok true

def admitsAll (problem : Problem K) (vehicle : Vehicle) : List Nat → Except Fault Bool
  | [] => .ok true
  | id :: rest => do
    if ← problem.admits vehicle id then problem.admitsAll vehicle rest else return false

def assess (problem : Problem K) (plan : Plan) : Solution K := ⟨plan, problem.price plan⟩

end Problem

end TruckDrone
