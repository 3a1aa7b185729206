import TruckDrone.Neighborhood.EjectionChain
import TruckDrone.Neighborhood.TwoOpt
import TruckDrone.Proofs.Bounds.Positions
import TruckDrone.Proofs.Neighborhood.Enumeration
import TruckDrone.Proofs.Plan.Load
import TruckDrone.Proofs.Sequence

/-! The moves away from a solution, enumerated by positions only: the vehicles, the routes and the
customers are counted, and whatever a loop needs is read at the positions it has come to. What is
offered is the same, and so is the fault where there is one. -/

set_option autoImplicit false

namespace TruckDrone

open Sequence Sweep

variable {K : Type}

namespace Sweep

variable {α β γ : Type}

theorem each_cons_bind (head : α) (tail : List α) (body : α → Sweep β) :
    (each (head :: tail) >>= body) = (body head).append (each tail >>= body) := rfl

theorem each_bind_congr {items : List α} {first second : α → Sweep β}
    (same : ∀ item ∈ items, first item = second item) :
    (each items >>= first) = (each items >>= second) := by
  induction items with
  | nil => rfl
  | cons head tail ih =>
    rw [each_cons_bind, each_cons_bind, same head (List.mem_cons_self ..),
      ih fun item member => same item (List.mem_cons_of_mem _ member)]

theorem each_map_bind (items : List α) (change : α → β) (body : β → Sweep γ) :
    (each (items.map change) >>= body) = (each items >>= fun item => body (change item)) := by
  induction items with
  | nil => rfl
  | cons head tail ih => rw [List.map_cons, each_cons_bind, each_cons_bind, ih]

theorem each_bind_pure (items : List α) (change : α → β) :
    (each items >>= fun item => pure (change item)) = each (items.map change) := by
  induction items with
  | nil => rfl
  | cons head tail ih =>
    rw [each_cons_bind, ih]
    rfl

end Sweep

namespace TwoOpt

def reversalsByPosition (problem : Problem K) (solution : Solution K) : Sweep (Offer K) := do
  let vehicles ← lift (fleetByPosition problem.trucks problem.drones)
  let vehicle ← each vehicles
  let (slot, route) ← each (solution.plan.slots vehicle)
  let stops := route.stops
  let bound ← lift (back stops.length 1)
  let i ← each (span 1 bound)
  let j ← each (span (i + 1) bound)
  let length ← lift (back j i)
  let reversed ← lift (route.reverse i (length + 1))
  let plan ← lift (solution.plan.put slot reversed)
  let start ← lift (back i 1)
  let before ← lift (entry stops start)
  let last ← lift (entry stops j)
  return ⟨problem.assess plan, .between before last⟩

theorem reversalsByPosition_eq (problem : Problem K) (solution : Solution K) :
    reversalsByPosition problem solution = reversals problem solution := by
  rw [reversalsByPosition, fleetByPosition_eq_ok, lift_ok_bind, reversals]
  refine each_bind_congr fun vehicle _ => each_bind_congr fun (slot, route) _ => ?_
  dsimp only
  rw [back_eq_ok (by rw [Route.length_stops]; omega), lift_ok_bind]
  refine each_bind_congr fun i inFirst => each_bind_congr fun j inLast => ?_
  rw [mem_span] at inFirst inLast
  rw [back_eq_ok (by omega), lift_ok_bind, back_eq_ok inFirst.1]
  simp only [lift_ok_bind]

/-- Every vehicle of a list with each of those behind it, which are cut off after its position. -/
def pairsByPosition (vehicles : List Vehicle) : Sweep (Vehicle × Vehicle) := do
  let position ← each (List.range vehicles.length)
  let vehicle ← lift (entry vehicles position)
  let behind ← lift (beyond vehicles position)
  let later ← each behind
  return (vehicle, later)

theorem pairsByPosition_cons (head : Vehicle) (tail : List Vehicle) :
    pairsByPosition (head :: tail) = (each (tail.map (head, ·))).append (pairsByPosition tail) := by
  have first : (lift (entry (head :: tail) 0) >>= fun vehicle =>
      lift (beyond (head :: tail) 0) >>= fun behind =>
        each behind >>= fun later => (pure (vehicle, later) : Sweep (Vehicle × Vehicle))) =
          each (tail.map (head, ·)) := by
    rw [entry_eq_ok (Nat.zero_lt_succ _), lift_ok_bind, beyond_eq_ok (Nat.zero_lt_succ _),
      lift_ok_bind]
    exact each_bind_pure tail _
  unfold pairsByPosition
  rw [List.length_cons, List.range_succ_eq_map, each_cons_bind, first, each_map_bind]
  congr 1
  refine each_bind_congr fun position member => ?_
  have inside := List.mem_range.1 member
  rw [entry_eq_ok (Nat.succ_lt_succ inside), entry_eq_ok inside,
    beyond_eq_ok (Nat.succ_lt_succ inside), beyond_eq_ok inside]
  rfl

theorem pairsByPosition_eq (vehicles : List Vehicle) :
    pairsByPosition vehicles = each (vehiclePairs vehicles) := by
  induction vehicles with
  | nil => rfl
  | cons head tail ih =>
    rw [pairsByPosition_cons, ih, append_of_clean (fault_each _)]
    rfl

def tailExchangesByPosition (problem : Problem K) (solution : Solution K) : Sweep (Offer K) := do
  let vehicles ← lift (fleetByPosition problem.trucks problem.drones)
  let (u, v) ← pairsByPosition vehicles
  let first ← each (solution.plan.slots u)
  let second ← each (solution.plan.slots v)
  exchanges problem solution.plan first second

theorem tailExchangesByPosition_eq (problem : Problem K) (solution : Solution K) :
    tailExchangesByPosition problem solution = tailExchanges problem solution := by
  rw [tailExchangesByPosition, fleetByPosition_eq_ok, lift_ok_bind, pairsByPosition_eq]
  rfl

end TwoOpt

namespace EjectionChain

variable (problem : Problem K) (plan : Plan)

def chainsByPosition (giver relay taker : Slot) : Sweep (Offer K) := do
  let giverRoute ← lift (entry (plan.routes giver.vehicle) giver.position)
  let relayRoute ← lift (entry (plan.routes relay.vehicle) relay.position)
  let takerRoute ← lift (entry (plan.routes taker.vehicle) taker.position)
  let a := giverRoute.stops
  let b := relayRoute.stops
  let c := takerRoute.stops
  let bound ← lift (back a.length 1)
  let i ← each (span 1 bound)
  let given ← lift (entry a i)
  keepIf (← lift (problem.admits relay.vehicle given))
  let shrunk ← lift (eraseAt a i)
  let arrival ← each (span 1 b.length)
  let departure ← each (span 1 b.length)
  keepIf (arrival != departure)
  let source ← lift (back departure (if arrival < departure then 1 else 0))
  let passed ← lift (entry b source)
  keepIf (← lift (problem.admits taker.vehicle passed))
  let grown ← lift (insertAt b arrival given)
  let exchanged ← lift (eraseAt grown departure)
  let landing ← each (span 1 c.length)
  let extended ← lift (insertAt c landing passed)
  let step ← lift (plan.assign relay exchanged)
  let step ← lift (step.assign taker extended)
  let final ← lift (step.assign giver shrunk)
  return ⟨problem.assess final, .trivial⟩

def relocationsByPosition (solution : Solution K) : Sweep (Offer K) := do
  let plan := solution.plan
  let vehicles ← lift (fleetByPosition problem.trucks problem.drones)
  let u ← each vehicles
  let v ← each vehicles
  let w ← each vehicles
  let first ← each (List.range (plan.routes u).length)
  let second ← each (List.range (plan.routes v).length)
  keepIf ((⟨u, first⟩ : Slot) != ⟨v, second⟩)
  let third ← each (List.range (plan.routes w).length)
  keepIf ((⟨v, second⟩ : Slot) != ⟨w, third⟩ && (⟨w, third⟩ : Slot) != ⟨u, first⟩)
  chainsByPosition problem plan ⟨u, first⟩ ⟨v, second⟩ ⟨w, third⟩

variable {problem} {plan}

theorem back_if (arrival departure : Nat) :
    back departure (if arrival < departure then 1 else 0) =
      .ok (if arrival < departure then departure - 1 else departure) := by
  split
  · exact back_eq_ok (by omega)
  · exact back_eq_ok (Nat.zero_le _)

theorem chainsByPosition_eq (giver relay taker : Slot × Route)
    (holdsGiver : plan.occupant? giver.1 = some giver.2)
    (holdsRelay : plan.occupant? relay.1 = some relay.2)
    (holdsTaker : plan.occupant? taker.1 = some taker.2) :
    chainsByPosition problem plan giver.1 relay.1 taker.1 =
      chains problem plan giver relay taker := by
  rw [chainsByPosition, entry_eq_ok_iff.2 holdsGiver, lift_ok_bind, entry_eq_ok_iff.2 holdsRelay,
    lift_ok_bind, entry_eq_ok_iff.2 holdsTaker, lift_ok_bind]
  dsimp only
  rw [back_eq_ok (by rw [Route.length_stops]; omega), lift_ok_bind]
  simp only [back_if, lift_ok_bind]
  rfl

/-- Positions stand for the slots that are enumerated together with their routes. -/
theorem each_slots_bind {β : Type} {plan : Plan} {vehicle : Vehicle} {byPosition : Nat → Sweep β}
    {body : Slot × Route → Sweep β}
    (same : ∀ position route, plan.occupant? ⟨vehicle, position⟩ = some route →
      byPosition position = body (⟨vehicle, position⟩, route)) :
    (each (List.range (plan.routes vehicle).length) >>= byPosition) =
      (each (plan.slots vehicle) >>= body) := by
  have positions : List.range (plan.routes vehicle).length =
      (plan.slots vehicle).map fun entry => entry.1.position := by
    have places := congrArg (List.map Slot.position) (Plan.map_fst_slots plan vehicle)
    simpa [List.map_map, Function.comp_def] using places.symm
  rw [positions, each_map_bind]
  refine each_bind_congr fun (⟨owner, position⟩, route) member => ?_
  obtain ⟨rfl, occupied⟩ := Plan.mem_slots.1 member
  exact same position route occupied

theorem relocationsByPosition_eq (problem : Problem K) (solution : Solution K) :
    relocationsByPosition problem solution = relocations problem solution := by
  rw [relocationsByPosition, fleetByPosition_eq_ok, lift_ok_bind, relocations]
  refine each_bind_congr fun u _ => each_bind_congr fun v _ => each_bind_congr fun w _ => ?_
  apply each_slots_bind
  intro first giver holdsGiver
  apply each_slots_bind
  intro second relay holdsRelay
  apply bind_congr
  intro _
  apply each_slots_bind
  intro third taker holdsTaker
  apply bind_congr
  intro _
  exact chainsByPosition_eq (⟨u, first⟩, giver) (⟨v, second⟩, relay) (⟨w, third⟩, taker)
    holdsGiver holdsRelay holdsTaker

end EjectionChain

end TruckDrone
