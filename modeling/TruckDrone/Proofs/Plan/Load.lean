import Mathlib.Algebra.BigOperators.Group.List.Basic
import Mathlib.Algebra.GroupWithZero.Nat
import TruckDrone.Proofs.Plan.Replacement

/-! Sums over the routes of a fleet, and what a replacement changes in them. Every count
that a plan is judged by is such a sum, in the numbers or in the multisets. -/

set_option autoImplicit false

namespace TruckDrone.Plan

theorem mem_slots {plan : Plan} {vehicle : Vehicle} {slot : Slot} {route : Route} :
    (slot, route) ∈ plan.slots vehicle ↔
      slot.vehicle = vehicle ∧ plan.occupant? slot = some route := by
  cases slot with
  | mk owner position =>
    simp only [slots, List.mem_map, Prod.exists, Prod.mk.injEq, Slot.mk.injEq, occupant?]
    constructor
    · rintro ⟨held, place, member, ⟨rfl, rfl⟩, rfl⟩
      exact ⟨rfl, List.mem_zipIdx_iff_getElem?.1 member⟩
    · rintro ⟨rfl, present⟩
      exact ⟨route, position, List.mem_zipIdx_iff_getElem?.2 present, ⟨rfl, rfl⟩, rfl⟩

theorem map_fst_slots (plan : Plan) (vehicle : Vehicle) :
    (plan.slots vehicle).map Prod.fst =
      (List.range (plan.routes vehicle).length).map (Slot.mk vehicle) := by
  rw [slots, List.map_map, List.range_eq_range', ← List.zipIdx_map_snd 0, List.map_map]
  rfl

theorem nodup_slots {vehicles : List Vehicle} (distinct : vehicles.Nodup) (plan : Plan) :
    ((vehicles.flatMap plan.slots).map Prod.fst).Nodup := by
  rw [List.map_flatMap]
  apply List.pairwise_flatMap.2
  constructor
  · intro vehicle _
    rw [map_fst_slots]
    refine List.pairwise_map.2 (List.nodup_range.imp fun different same => different ?_)
    exact congrArg Slot.position same
  · refine distinct.imp fun different slot inFirst other inSecond same => different ?_
    obtain ⟨⟨_, _⟩, first, rfl⟩ := List.mem_map.1 inFirst
    obtain ⟨⟨_, _⟩, second, rfl⟩ := List.mem_map.1 inSecond
    exact (mem_slots.1 first).1.symm.trans
      ((congrArg Slot.vehicle same).trans (mem_slots.1 second).1)

variable {M : Type} [AddCommMonoid M]

def load (vehicles : List Vehicle) (weight : Vehicle → Route → M) (plan : Plan) : M :=
  ((vehicles.flatMap plan.slots).map fun (slot, route) => weight slot.vehicle route).sum

def displaced (plan : Plan) (placed : List (Slot × Option Route)) (weight : Vehicle → Route → M) :
    M :=
  (placed.map fun entry => (plan.occupant? entry.1).elim 0 (weight entry.1.vehicle)).sum

def installed (placed : List (Slot × Option Route)) (weight : Vehicle → Route → M) : M :=
  (placed.map fun entry => entry.2.elim 0 (weight entry.1.vehicle)).sum

theorem sum_filterMap_id {α : Type} (weight : α → M) (items : List (Option α)) :
    ((items.filterMap id).map weight).sum = (items.map fun item => item.elim 0 weight).sum := by
  induction items with
  | nil => rfl
  | cons head tail ih =>
    cases head with
    | none => exact ih.trans (zero_add _).symm
    | some item => exact congrArg (weight item + ·) ih

theorem load_replace_eq (vehicles : List Vehicle) (weight : Vehicle → Route → M) (plan : Plan)
    (placed : List (Slot × Option Route)) :
    (plan.replace placed).load vehicles weight =
      ((vehicles.flatMap plan.slots).map fun (slot, route) =>
        (settled placed slot route).elim 0 (weight slot.vehicle)).sum := by
  unfold load
  induction vehicles with
  | nil => rfl
  | cons vehicle rest ih =>
    rw [List.flatMap_cons, List.flatMap_cons, List.map_append, List.map_append, List.sum_append,
      List.sum_append, ih]
    congr 1
    have entries : ((plan.replace placed).slots vehicle).map
        (fun (slot, route) => weight slot.vehicle route) =
          (replaceRoutes placed vehicle (plan.routes vehicle)).map (weight vehicle) := by
      rw [slots, routes_replace, List.map_map, ← List.zipIdx_map_fst 0 (replaceRoutes ..),
        List.map_map, List.zipIdx_map_fst]
      rfl
    rw [entries, replaceRoutes, sum_filterMap_id, List.mapIdx_eq_zipIdx_map, List.map_map, slots,
      List.map_map]
    rfl

/-- Changing the summand of one of several different keys. -/
theorem sum_map_update {κ α : Type} [DecidableEq κ] {entries : List (κ × α)}
    (distinct : (entries.map Prod.fst).Nodup) {key : κ} {old : α} (member : (key, old) ∈ entries)
    (new : M) (weight : κ → α → M) :
    (entries.map fun (other, item) => if other = key then new else weight other item).sum +
      weight key old = (entries.map fun (other, item) => weight other item).sum + new := by
  induction entries with
  | nil => simp at member
  | cons head tail ih =>
    obtain ⟨fresh, distinctTail⟩ := List.nodup_cons.1 distinct
    obtain ⟨first, item⟩ := head
    rw [List.map_cons, List.sum_cons, List.map_cons, List.sum_cons]
    rcases List.mem_cons.1 member with here | later
    · cases here
      have others : (tail.map fun (other, item) => if other = key then new else weight other item) =
          tail.map fun (other, item) => weight other item := by
        apply List.map_congr_left
        intro entry inTail
        have apart : entry.1 ≠ key := fun same => fresh (List.mem_map.2 ⟨entry, inTail, same⟩)
        simp [apart]
      rw [others]
      simp only [if_true]
      rw [add_comm new, add_right_comm, add_comm (weight key old)]
    · have apart : first ≠ key := fun same => fresh (List.mem_map.2 ⟨_, later, same.symm⟩)
      simp only [if_neg apart]
      rw [add_assoc, ih distinctTail later, add_assoc]

/-- What a replacement adds to a load and takes from it: the weights of the listed slots. -/
theorem load_replace {vehicles : List Vehicle} (distinct : vehicles.Nodup) (plan : Plan)
    {placed : List (Slot × Option Route)} (apart : (placed.map Prod.fst).Nodup)
    (occupied : ∀ entry ∈ placed, entry.1.vehicle ∈ vehicles ∧ (plan.occupant? entry.1).isSome)
    (weight : Vehicle → Route → M) :
    (plan.replace placed).load vehicles weight + plan.displaced placed weight =
      plan.load vehicles weight + installed placed weight := by
  rw [load_replace_eq]
  unfold displaced installed
  induction placed with
  | nil => simp [settled, load]
  | cons entry rest ih =>
    obtain ⟨slot, outcome⟩ := entry
    obtain ⟨fresh, apartRest⟩ := List.nodup_cons.1 apart
    obtain ⟨owned, holds⟩ := occupied (slot, outcome) (List.mem_cons_self ..)
    obtain ⟨old, held⟩ := Option.isSome_iff_exists.1 holds
    have member : (slot, old) ∈ vehicles.flatMap plan.slots :=
      List.mem_flatMap.2 ⟨slot.vehicle, owned, mem_slots.2 ⟨rfl, held⟩⟩
    -- The first entry decides about its slot, the rest about all others.
    have split : ∀ (other : Slot) (route : Route),
        (settled ((slot, outcome) :: rest) other route).elim 0 (weight other.vehicle) =
          if other = slot then outcome.elim 0 (weight slot.vehicle)
          else (settled rest other route).elim 0 (weight other.vehicle) := by
      intro other route
      by_cases same : other = slot
      · simp [settled, same]
      · simp [settled, same, List.lookup_cons, beq_false_of_ne same]
    have update := sum_map_update (nodup_slots distinct plan) member
      (outcome.elim 0 (weight slot.vehicle)) fun other route =>
        (settled rest other route).elim 0 (weight other.vehicle)
    rw [settled_of_not_listed fresh] at update
    simp only [split, List.map_cons, List.sum_cons, held, Option.elim_some] at update ⊢
    rw [← add_assoc, update, add_right_comm,
      ih apartRest fun entry inRest => occupied entry (List.mem_cons_of_mem _ inRest),
      add_assoc, add_comm (outcome.elim _ _)]

end TruckDrone.Plan
