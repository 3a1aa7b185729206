import TruckDrone.Construction.Tours
import TruckDrone.Random.Source

/-! The random construction: customers in random order, each dealt to a random vehicle
among those that may serve it. -/

set_option autoImplicit false

namespace TruckDrone.RandomDeal

variable {K σ : Type} [RandomSource σ]

def deal (problem : Problem K) : List Nat → Tours → σ → Except Fault (Tours × σ)
  | [], tours, source => .ok (tours, source)
  | id :: rest, tours, source => do
    let vehicles ← problem.carriers id
    let (choice, source) := RandomSource.below vehicles.length source
    let vehicle ← Sequence.entry vehicles choice
    deal problem rest (← tours.extend (vehicle.unified problem.trucks) id) source

def construct (problem : Problem K) (source : σ) : Except Fault (Option (Solution K) × σ) :=
  if problem.servable then do
    let (order, source) := RandomSource.shuffle problem.customerIds source
    let (tours, source) ← deal problem order (.idle problem) source
    return (some (← tours.toSolution problem), source)
  else .ok (none, source)

end TruckDrone.RandomDeal
