import TruckDrone.Proofs.Bounds.Positions
import TruckDrone.Violation

/-! The defects of a solution, found with a table that counts the visits of every location. The
table is only read and written at locations that it has, and what is found does not depend on it. -/

set_option autoImplicit false

namespace TruckDrone

variable {K : Type} (problem : Problem K)

namespace Violation

def counts (visited : List Nat) : List Nat := (List.range problem.size).map visited.count

def tallyVisit (slot : Slot) (table : List Nat) (id : Nat) :
    Except Fault (List Nat × List Violation) := do
  if problem.size ≤ id then return (table, [.unknownCustomer id slot])
  let before ← Sequence.entry table id
  let table ← Sequence.replaceAt table id (before + 1)
  let now ← Sequence.entry table id
  let again := if 1 < now then [.duplicateCustomer id slot] else []
  match slot.vehicle with
  | .truck _ => return (table, again)
  | .drone drone =>
    let dronable ← problem.dronable id
    return (table, again ++ if dronable then [] else [.nonDronable id drone slot.position])

def tallyBody (slot : Slot) : List Nat → List Nat → Except Fault (List Nat × List Violation)
  | table, [] => .ok (table, [])
  | table, id :: rest => do
    let (table, found) ← tallyVisit problem slot table id
    let (table, others) ← tallyBody slot table rest
    return (table, found ++ others)

def tallyRoutes : List Nat → List (Slot × Route) → Except Fault (List Nat × List Violation)
  | table, [] => .ok (table, [])
  | table, (slot, route) :: rest => do
    let foreign := if route.kind ≠ slot.vehicle.kind then [.kindMismatch slot] else []
    let empty := if (← route.innerSize) = 0 then [.emptyRoute slot] else []
    let (table, found) ← tallyBody problem slot table (← route.inner)
    let (table, others) ← tallyRoutes table rest
    return (table, foreign ++ empty ++ found ++ others)

def uncounted (table : List Nat) : List Violation :=
  (table.zipIdx.drop 1).filterMap fun (count, id) =>
    if count = 0 then some (.missingCustomer id) else none

def violationsByTable (solution : Solution K) : Except Fault (List Violation) := do
  let plan := solution.plan
  let vehicles ← fleetByPosition problem.trucks problem.drones
  let (table, found) ← tallyRoutes problem (List.replicate problem.size 0)
    (vehicles.flatMap plan.slots)
  return listDefects .truck problem.trucks plan.trucks.length ++
    listDefects .drone problem.drones plan.drones.length ++ found ++ uncounted table

variable {problem}

theorem length_counts (visited : List Nat) : (counts problem visited).length = problem.size := by
  simp [counts]

theorem entry_counts {visited : List Nat} {id : Nat} (inside : id < problem.size) :
    Sequence.entry (counts problem visited) id = .ok (visited.count id) := by
  rw [Sequence.entry_eq_ok (by rwa [length_counts])]
  simp [counts]

theorem replaceAt_counts {visited : List Nat} {id : Nat} (inside : id < problem.size) :
    Sequence.replaceAt (counts problem visited) id (visited.count id + 1) =
      .ok (counts problem (visited ++ [id])) := by
  rw [Sequence.replaceAt_eq_ok (by rwa [length_counts])]
  congr 1
  apply List.ext_getElem (by simp [counts])
  intro location _ _
  rw [List.getElem_set]
  by_cases same : id = location <;> simp [counts, same, List.count_append]

theorem counts_append_of_outside {visited : List Nat} {id : Nat} (outside : problem.size ≤ id) :
    counts problem (visited ++ [id]) = counts problem visited := by
  apply List.map_congr_left
  intro location member
  have apart : id ≠ location := fun same => by
    rw [List.mem_range] at member
    omega
  simp [List.count_append, apart]

theorem tallyVisit_counts (slot : Slot) (earlier : List Nat) (id : Nat) :
    tallyVisit problem slot (counts problem earlier) id =
      .ok (counts problem (earlier ++ [id]), visitDefects problem slot earlier id) := by
  unfold tallyVisit visitDefects
  by_cases outside : problem.size ≤ id
  · rw [if_pos outside, counts_append_of_outside outside, List.getElem?_eq_none outside]
    rfl
  · have inside : id < problem.size := Nat.lt_of_not_le outside
    have again : (1 < (earlier ++ [id]).count id) = (id ∈ earlier) := by
      simp [List.count_append, List.count_pos_iff]
    rw [if_neg outside, entry_counts inside, Fault.ok_bind, replaceAt_counts inside, Fault.ok_bind,
      entry_counts inside, Fault.ok_bind, List.getElem?_eq_getElem inside]
    simp only [again]
    cases slot.vehicle with
    | truck truck => simp
    | drone drone =>
      simp [Problem.dronable, Sequence.entry_eq_ok inside, Except.map]

theorem tallyBody_counts (slot : Slot) (earlier ids : List Nat) :
    tallyBody problem slot (counts problem earlier) ids =
      .ok (counts problem (earlier ++ ids), bodyDefects problem slot earlier ids) := by
  induction ids generalizing earlier with
  | nil => rw [List.append_nil]; rfl
  | cons id rest ih =>
    rw [tallyBody, tallyVisit_counts, Fault.ok_bind]
    dsimp only
    rw [ih, List.append_assoc]
    rfl

theorem tallyRoutes_counts (earlier : List Nat) (entries : List (Slot × Route)) :
    tallyRoutes problem (counts problem earlier) entries =
      .ok (counts problem (earlier ++ entries.flatMap (·.2.body)),
        scan problem earlier entries) := by
  induction entries generalizing earlier with
  | nil => rw [List.flatMap_nil, List.append_nil]; rfl
  | cons entry rest ih =>
    obtain ⟨slot, route⟩ := entry
    have empty : (if route.size = 0 then [Violation.emptyRoute slot] else []) =
        if route.isEmpty then [.emptyRoute slot] else [] := by
      simp [Route.size, Route.isEmpty]
    rw [tallyRoutes, Route.innerSize_eq_ok, Fault.ok_bind, Route.inner_eq_ok, Fault.ok_bind,
      tallyBody_counts, Fault.ok_bind]
    dsimp only
    rw [ih, empty, List.flatMap_cons, List.append_assoc]
    rfl

theorem uncounted_counts (visited : List Nat) :
    uncounted (counts problem visited) = (unserved problem visited).map .missingCustomer := by
  have located : (counts problem visited).zipIdx =
      (List.range problem.size).map fun id => (visited.count id, id) := by
    apply List.ext_getElem (by simp [counts])
    simp [counts]
  have customers : (List.range problem.size).drop 1 = Sequence.span 1 problem.size := by
    rw [List.range_eq_range', List.drop_range']
    rfl
  rw [uncounted, located, ← List.map_drop, customers, List.filterMap_map, unserved,
    ← List.filterMap_eq_map, ← List.filterMap_eq_filter, List.filterMap_filterMap]
  congr 1
  funext id
  by_cases visit : id ∈ visited <;> simp [visit, Option.guard, List.count_eq_zero]

theorem violationsByTable_eq_ok (problem : Problem K) (solution : Solution K) :
    violationsByTable problem solution = .ok (problem.violations solution) := by
  have fresh : List.replicate problem.size 0 = counts problem [] := by
    simp [counts]
  rw [violationsByTable, fleetByPosition_eq_ok, Fault.ok_bind, fresh, tallyRoutes_counts,
    Fault.ok_bind, List.nil_append]
  dsimp only
  rw [uncounted_counts]
  rfl

end Violation

end TruckDrone
