import Mathlib.Algebra.Order.BigOperators.Group.List
import Mathlib.Data.List.Nodup
import Mathlib.Data.List.Pairwise
import TruckDrone.Neighborhood.TwoOpt
import TruckDrone.Proofs.Plan.Load
import TruckDrone.Violation

/-! The order in which the vehicles of a fleet, the slots of a vehicle and the positions of a
route are met. -/

set_option autoImplicit false

namespace TruckDrone

theorem pairwise_span (low high : Nat) : (Sequence.span low high).Pairwise (· < ·) :=
  List.pairwise_lt_range'

theorem pairwise_fleet (trucks drones : Nat) :
    (fleet trucks drones).Pairwise fun u v => u.unified trucks < v.unified trucks := by
  refine List.pairwise_map.2 (List.pairwise_lt_range.imp fun earlier => ?_)
  rwa [Vehicle.unified_ofUnified, Vehicle.unified_ofUnified]

theorem nodup_fleet (trucks drones : Nat) : (fleet trucks drones).Nodup :=
  (pairwise_fleet trucks drones).imp fun earlier same => (same ▸ earlier).false

theorem Plan.pairwise_slots (plan : Plan) (vehicle : Vehicle) :
    (plan.slots vehicle).Pairwise fun earlier later => earlier.1.position < later.1.position := by
  have positions : (plan.slots vehicle).map (fun entry => entry.1.position) =
      List.range (plan.routes vehicle).length := by
    have places := congrArg (List.map Slot.position) (map_fst_slots plan vehicle)
    simpa [List.map_map, Function.comp_def] using places
  refine List.pairwise_map.1 ?_
  rw [positions]
  exact List.pairwise_lt_range

theorem Violation.mem_held {K : Type} {problem : Problem K} {plan : Plan} {slot : Slot}
    {route : Route} : (slot, route) ∈ held problem plan ↔
      slot.vehicle ∈ problem.fleet ∧ plan.occupant? slot = some route := by
  rw [held, List.mem_flatMap]
  constructor
  · rintro ⟨vehicle, inFleet, member⟩
    obtain ⟨rfl, occupied⟩ := Plan.mem_slots.1 member
    exact ⟨inFleet, occupied⟩
  · rintro ⟨inFleet, occupied⟩
    exact ⟨slot.vehicle, inFleet, Plan.mem_slots.2 ⟨rfl, occupied⟩⟩

theorem Violation.nodup_held {K : Type} (problem : Problem K) (plan : Plan) :
    (held problem plan).Nodup :=
  List.Nodup.of_map Prod.fst (Plan.nodup_slots (nodup_fleet _ _) plan)

theorem TwoOpt.mem_vehiclePairs {trucks : Nat} {vehicles : List Vehicle}
    (sorted : vehicles.Pairwise fun u v => u.unified trucks < v.unified trucks) {u v : Vehicle} :
    (u, v) ∈ vehiclePairs vehicles ↔
      u ∈ vehicles ∧ v ∈ vehicles ∧ u.unified trucks < v.unified trucks := by
  induction vehicles with
  | nil => simp [vehiclePairs]
  | cons head tail ih =>
    obtain ⟨first, rest⟩ := List.pairwise_cons.1 sorted
    simp only [vehiclePairs, List.mem_append, List.mem_map, Prod.mk.injEq, ih rest,
      List.mem_cons]
    constructor
    · rintro (⟨later, inTail, rfl, rfl⟩ | ⟨left, right, ordered⟩)
      · exact ⟨.inl rfl, .inr inTail, first _ inTail⟩
      · exact ⟨.inr left, .inr right, ordered⟩
    · rintro ⟨rfl | left, rfl | right, ordered⟩
      · exact absurd ordered (Nat.lt_irrefl _)
      · exact .inl ⟨v, right, rfl, rfl⟩
      · exact absurd (first u left) (Nat.lt_asymm ordered)
      · exact .inr ⟨left, right, ordered⟩

theorem TwoOpt.pairwise_vehiclePairs {trucks : Nat} {vehicles : List Vehicle}
    (sorted : vehicles.Pairwise fun u v => u.unified trucks < v.unified trucks) :
    (vehiclePairs vehicles).Pairwise fun earlier later =>
      earlier.1.unified trucks < later.1.unified trucks ∨
        earlier.1 = later.1 ∧ earlier.2.unified trucks < later.2.unified trucks := by
  induction vehicles with
  | nil => exact .nil
  | cons head tail ih =>
    obtain ⟨first, rest⟩ := List.pairwise_cons.1 sorted
    refine List.pairwise_append.2 ⟨?_, ih rest, ?_⟩
    · exact List.pairwise_map.2 (rest.imp fun ordered => .inr ⟨rfl, ordered⟩)
    · intro earlier inHead ⟨u, v⟩ inTail
      obtain ⟨_, _, rfl⟩ := List.mem_map.1 inHead
      exact .inl (first u ((mem_vehiclePairs rest).1 inTail).1)

/-- Moves listed group by group are in order if every group is and earlier groups come first. -/
theorem pairwise_flatMap_of_groups {α β : Type} {before : α → α → Prop} {ordered : β → β → Prop}
    {groups : List α} {moves : α → List β} (sorted : groups.Pairwise before)
    (inside : ∀ group ∈ groups, (moves group).Pairwise ordered)
    (across : ∀ first ∈ groups, ∀ second ∈ groups, before first second →
      ∀ x ∈ moves first, ∀ y ∈ moves second, ordered x y) :
    (groups.flatMap moves).Pairwise ordered := by
  refine List.pairwise_flatMap.2 ⟨inside, sorted.imp_of_mem ?_⟩
  intro first second inFirst inSecond
  exact across first inFirst second inSecond

/-- Where a key is in the order of the list, a member with a lower key is related to one with a
higher key. -/
theorem rel_of_pairwise_of_key {α β : Type} [Preorder β] {key : α → β} {related : α → α → Prop}
    {items : List α} (sorted : items.Pairwise fun first second => key first < key second)
    (pairs : items.Pairwise related) {first second : α} (inFirst : first ∈ items)
    (inSecond : second ∈ items) (before : key first < key second) : related first second := by
  have forward : items.Pairwise fun one other => key one < key other → related one other := by
    refine pairs.imp ?_
    exact fun here _ => here
  have backward : items.Pairwise
      (flip fun one other => key one < key other → related one other) := by
    refine sorted.imp ?_
    exact fun earlier later => absurd later earlier.asymm
  have reflexive : ∀ one ∈ items, key one < key one → related one one :=
    fun _ _ same => absurd same (lt_irrefl _)
  exact forward.forall_of_forall_of_flip reflexive backward inFirst inSecond before

end TruckDrone
