import TruckDrone.Neighborhood.Exploration

/-! Ejection chains over three routes: a customer of the first route goes to the second,
which in turn gives a customer to the third. -/

set_option autoImplicit false

namespace TruckDrone.EjectionChain

open Sequence Sweep

variable {K : Type}

/-- Every chain over three occupied slots that the receiving vehicles admit. The given
customer is put at position `arrival` of the second sequence, then the entry at position
`departure` of the grown sequence leaves it; `landing` is its position in the third. -/
def chains (problem : Problem K) (plan : Plan) (giver relay taker : Slot × Route) :
    Sweep (Offer K) := do
  let (giverSlot, giverRoute) := giver
  let (relaySlot, relayRoute) := relay
  let (takerSlot, takerRoute) := taker
  let a := giverRoute.stops
  let b := relayRoute.stops
  let c := takerRoute.stops
  let i ← each (span 1 (a.length - 1))
  let given ← lift (entry a i)
  keepIf (← lift (problem.admits relaySlot.vehicle given))
  let shrunk ← lift (eraseAt a i)
  let arrival ← each (span 1 b.length)
  let departure ← each (span 1 b.length)
  keepIf (arrival != departure)
  let passed ← lift (entry b (if arrival < departure then departure - 1 else departure))
  keepIf (← lift (problem.admits takerSlot.vehicle passed))
  let grown ← lift (insertAt b arrival given)
  let exchanged ← lift (eraseAt grown departure)
  let landing ← each (span 1 c.length)
  let extended ← lift (insertAt c landing passed)
  -- The giver comes last: dropping its route must not move the other two slots.
  let step ← lift (plan.assign relaySlot exchanged)
  let step ← lift (step.assign takerSlot extended)
  let final ← lift (step.assign giverSlot shrunk)
  return ⟨problem.assess final, .trivial⟩

def relocations (problem : Problem K) (solution : Solution K) : Sweep (Offer K) := do
  let plan := solution.plan
  let u ← each problem.fleet
  let v ← each problem.fleet
  let w ← each problem.fleet
  let giver ← each (plan.slots u)
  let relay ← each (plan.slots v)
  keepIf (giver.1 != relay.1)
  let taker ← each (plan.slots w)
  keepIf (relay.1 != taker.1 && taker.1 != giver.1)
  chains problem plan giver relay taker

def neighborhood : Neighborhood K where
  label := "Ejection chain"
  withinRoute _ _ := ⟨[], none⟩
  betweenRoutes := relocations

end TruckDrone.EjectionChain
