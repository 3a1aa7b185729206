import TruckDrone.Construction.Tours
import TruckDrone.Distance

/-! The nearest-neighbor construction: in each round every vehicle in turn goes on to
the nearest customer left that it may serve. -/

set_option autoImplicit false

namespace TruckDrone.NearestNeighbor

variable {K : Type} [Ranked K]

/-- The nearest of some customers, the first among equals. Distances are looked up only
to compare, so a single customer needs none. -/
def nearest? (distances : DistanceTable K) (place : Nat) : List Nat → Except Fault (Option Nat)
  | [] => .ok none
  | first :: rest => some <$> rest.foldlM (fun best id => do
      let incumbent ← distances.get place best
      let candidate ← distances.get place id
      return if Ranked.rank candidate < Ranked.rank incumbent then id else best) first

def round (problem : Problem K) (distances : DistanceTable K) :
    Tours → List Nat → Except Fault (Tours × List Nat)
  | [], pending => .ok ([], pending)
  | (vehicle, ids) :: rest, pending => do
    let candidates ← pending.filterM (problem.admits vehicle)
    match ← nearest? distances (ids.getLast?.getD depotId) candidates with
    | none =>
      let (rest, pending) ← round problem distances rest pending
      return ((vehicle, ids) :: rest, pending)
    | some id =>
      let (rest, pending) ← round problem distances rest (pending.erase id)
      return ((vehicle, ids ++ [id]) :: rest, pending)

/-- Rounds until no customer is pending; none if a round serves no one. -/
def rounds (problem : Problem K) (distances : DistanceTable K) (tours : Tours)
    (pending : List Nat) : Except Fault (Option Tours) :=
  if pending.isEmpty then .ok (some tours)
  else
    match round problem distances tours pending with
    | .error fault => .error fault
    | .ok (extended, left) =>
      if left.length < pending.length then rounds problem distances extended left
      else .ok none
  termination_by pending.length

def construct (problem : Problem K) (distances : DistanceTable K) :
    Except Fault (Option (Solution K)) :=
  if problem.servable then do
    match ← rounds problem distances (.idle problem) problem.customerIds with
    | none => return none
    | some tours => some <$> tours.toSolution problem
  else .ok none

end TruckDrone.NearestNeighbor
