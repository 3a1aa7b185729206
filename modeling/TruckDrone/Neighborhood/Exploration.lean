import TruckDrone.Neighborhood.Edge
import TruckDrone.Neighborhood.Sweep
import TruckDrone.Problem

/-! Choosing among enumerated candidates. Enumeration and choice are apart: a sweep
lists the offers, and a scan over that list keeps the best one. -/

set_option autoImplicit false

namespace TruckDrone

structure Offer (K : Type) where
  candidate : Solution K
  edge : Edge

structure Exploration (K : Type) where
  solution : Option (Solution K)
  edge : Edge

/-- Whether a candidate is taken whatever it costs. The answer may depend on how many
candidates were asked about before. -/
abbrev Aspiration (K : Type) := Nat → Solution K → Bool

namespace Exploration

variable {K : Type} [Scalar K]

def nothing : Exploration K := ⟨none, .trivial⟩

/-- A candidate replaces the best so far if it aspires, if it is the first, or if it
costs less by more than the tolerance. -/
def accepts (best : Exploration K) (aspires : Bool) (candidate : Solution K) : Bool :=
  aspires || match best.solution with
    | none => true
    | some incumbent => Scalar.undercuts candidate.cost incumbent.cost

def consider (best : Exploration K) (offer : Offer K) (aspires : Bool) : Exploration K :=
  if best.accepts aspires offer.candidate then ⟨some offer.candidate, offer.edge⟩ else best

def answers (aspiration : Aspiration K) (firstCall : Nat) (offers : List (Offer K)) : List Bool :=
  (offers.zipIdx firstCall).map fun (offer, call) => aspiration call offer.candidate

def judge (offers : List (Offer K × Bool)) : Exploration K :=
  offers.foldl (fun best (offer, aspires) => best.consider offer aspires) nothing

def scan (aspiration : Aspiration K) (firstCall : Nat) (offers : List (Offer K)) :
    Exploration K :=
  judge (offers.zip (answers aspiration firstCall offers))

/-- The second outcome if it alone has a candidate or its candidate costs less by more
than the tolerance; the first otherwise. -/
def cheaper (first second : Exploration K) : Exploration K :=
  match first.solution, second.solution with
  | none, _ => second
  | some _, none => first
  | some a, some b => if Scalar.undercuts b.cost a.cost then second else first

end Exploration

def Sweep.explore {K : Type} [Scalar K] (sweep : Sweep (Offer K)) (aspiration : Aspiration K)
    (firstCall : Nat) : Except Fault (Exploration K) :=
  match sweep.fault with
  | some fault => .error fault
  | none => .ok (.scan aspiration firstCall sweep.items)

structure Neighborhood (K : Type) where
  label : String
  withinRoute : Problem K → Solution K → Sweep (Offer K)
  betweenRoutes : Problem K → Solution K → Sweep (Offer K)

namespace Neighborhood

variable {K : Type} (neighborhood : Neighborhood K) (problem : Problem K) (solution : Solution K)

def moves : Sweep (Offer K) :=
  (neighborhood.withinRoute problem solution).append (neighborhood.betweenRoutes problem solution)

/-- The cheaper of the two outcomes, the one within a route at a tie. Calls of the
aspiration are numbered through both scans. -/
def best [Scalar K] (aspiration : Aspiration K) : Except Fault (Exploration K) := do
  let within := neighborhood.withinRoute problem solution
  let first ← within.explore aspiration 0
  let second ← (neighborhood.betweenRoutes problem solution).explore aspiration within.items.length
  return .cheaper first second

end Neighborhood

end TruckDrone
