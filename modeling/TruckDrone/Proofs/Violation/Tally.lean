import Mathlib.Data.Finset.Card
import TruckDrone.Proofs.Plan.Fleet

/-! How many defects of each kind a solution has. Most kinds are counted route by route; repeated
and missing customers depend on nothing but which visits there are, and how many of each. -/

set_option autoImplicit false

namespace TruckDrone

variable {K : Type}

def Problem.refuses (problem : Problem K) (vehicle : Vehicle) (id : Nat) : Bool :=
  vehicle.isDrone && (problem.customers[id]?).any fun customer => !customer.dronable

namespace Violation

inductive Kind where
  | missingCustomer
  | duplicateCustomer
  | unknownCustomer
  | nonDronable
  | emptyRoute
  | kindMismatch
  | fleetMismatch
  deriving DecidableEq, Repr

def kind : Violation → Kind
  | .missingCustomer .. => .missingCustomer
  | .duplicateCustomer .. => .duplicateCustomer
  | .unknownCustomer .. => .unknownCustomer
  | .nonDronable .. => .nonDronable
  | .emptyRoute .. => .emptyRoute
  | .kindMismatch .. => .kindMismatch
  | .fleetMismatch .. => .fleetMismatch

def tally (violations : List Violation) (kind : Kind) : Nat :=
  violations.countP fun violation => violation.kind = kind

theorem tally_append (first second : List Violation) (kind : Kind) :
    tally (first ++ second) kind = tally first kind + tally second kind := List.countP_append

/-- There is a violation only if there is one of some kind. -/
theorem eq_nil_of_tally {violations : List Violation} (none : ∀ kind, tally violations kind = 0) :
    violations = [] := by
  cases violations with
  | nil => rfl
  | cons head tail =>
    have absent := none head.kind
    rw [tally, List.countP_cons_of_pos (by simp)] at absent
    cases absent

variable (problem : Problem K)

/-! Defects counted route by route. -/

/-- Whether a visit is a defect of the kind, whatever was visited before. -/
def faulty (kind : Kind) (vehicle : Vehicle) (id : Nat) : Bool :=
  match kind with
  | .unknownCustomer => (problem.customers[id]?).isNone
  | .nonDronable => problem.refuses vehicle id
  | _ => false

def flawed (kind : Kind) (vehicle : Vehicle) (route : Route) : Bool :=
  match kind with
  | .kindMismatch => route.kind ≠ vehicle.kind
  | .emptyRoute => route.isEmpty
  | _ => false

/-- How many defects of the kind one route has, repeated customers left aside. -/
def weigh (kind : Kind) (vehicle : Vehicle) (route : Route) : Nat :=
  (if flawed kind vehicle route then 1 else 0) + route.body.countP (faulty problem kind vehicle)

variable {problem} {kind : Kind}

theorem tally_visitDefects (other : kind ≠ .duplicateCustomer) (slot : Slot) (earlier : List Nat)
    (id : Nat) : tally (visitDefects problem slot earlier id) kind =
      if faulty problem kind slot.vehicle id then 1 else 0 := by
  unfold visitDefects
  cases present : problem.customers[id]? with
  | none => cases kind <;> simp [tally, Violation.kind, faulty, Problem.refuses, present]
  | some customer =>
    have repeated : tally (if id ∈ earlier then [.duplicateCustomer id slot] else []) kind = 0 := by
      split
      · simp [tally, Violation.kind, other.symm]
      · rfl
    rw [tally_append, repeated, Nat.zero_add]
    cases slot with
    | mk vehicle position =>
      cases vehicle with
      | truck i =>
        cases kind <;>
          simp [tally, faulty, Problem.refuses, Vehicle.isDrone, Vehicle.kind, present]
      | drone i =>
        cases dronable : customer.dronable <;> cases kind <;>
          simp [tally, Violation.kind, faulty, Problem.refuses, Vehicle.isDrone, Vehicle.kind,
            present, dronable]

theorem tally_bodyDefects (other : kind ≠ .duplicateCustomer) (slot : Slot)
    (earlier ids : List Nat) :
    tally (bodyDefects problem slot earlier ids) kind =
      ids.countP (faulty problem kind slot.vehicle) := by
  induction ids generalizing earlier with
  | nil => rfl
  | cons id rest ih =>
    rw [bodyDefects, tally_append, ih, tally_visitDefects other, List.countP_cons, Nat.add_comm]

theorem tally_routeDefects (slot : Slot) (route : Route) :
    tally (routeDefects slot route) kind = if flawed kind slot.vehicle route then 1 else 0 := by
  rw [routeDefects, tally_append]
  by_cases foreign : route.kind = slot.vehicle.kind <;> by_cases empty : route.isEmpty <;>
    cases kind <;> simp [tally, flawed, Violation.kind, foreign, empty]

theorem tally_scan (other : kind ≠ .duplicateCustomer) (earlier : List Nat)
    (entries : List (Slot × Route)) : tally (scan problem earlier entries) kind =
      (entries.map fun (slot, route) => weigh problem kind slot.vehicle route).sum := by
  induction entries generalizing earlier with
  | nil => rfl
  | cons entry rest ih =>
    obtain ⟨slot, route⟩ := entry
    rw [scan, tally_append, tally_append, ih, tally_bodyDefects other, tally_routeDefects]
    rfl

/-! Repeated visits. -/

variable (problem)

def visits (plan : Plan) : List Nat := (held problem plan).flatMap (·.2.body)

/-- How many visits to locations of the table are not the first one, given those before. -/
def repeats : List Nat → List Nat → Nat
  | _, [] => 0
  | earlier, id :: rest =>
    (if id < problem.size ∧ id ∈ earlier then 1 else 0) + repeats (earlier ++ [id]) rest

def distinct (ids : List Nat) : Finset Nat := (ids.filter (· < problem.size)).toFinset

variable {problem}

theorem visits_eq_of_le {plan : Plan} (trucks : plan.trucks.length ≤ problem.trucks)
    (drones : plan.drones.length ≤ problem.drones) :
    visits problem plan = plan.allRoutes.flatMap Route.body := by
  rw [← Plan.map_snd_held trucks drones, List.flatMap_map]
  rfl

theorem repeats_append (earlier first second : List Nat) :
    repeats problem earlier (first ++ second) =
      repeats problem earlier first + repeats problem (earlier ++ first) second := by
  induction first generalizing earlier with
  | nil => simp [repeats]
  | cons id rest ih =>
    rw [List.cons_append, repeats, repeats, ih, Nat.add_assoc, List.append_assoc]
    rfl

theorem tally_visitDefects_duplicate (slot : Slot) (earlier : List Nat) (id : Nat) :
    tally (visitDefects problem slot earlier id) .duplicateCustomer =
      if id < problem.size ∧ id ∈ earlier then 1 else 0 := by
  unfold visitDefects
  cases present : problem.customers[id]? with
  | none =>
    have outside : ¬ id < problem.size := Nat.not_lt.2 (List.getElem?_eq_none_iff.1 present)
    simp [tally, Violation.kind, outside]
  | some customer =>
    have inside : id < problem.size := (List.getElem?_eq_some_iff.1 present).1
    have first : tally (if id ∈ earlier then [.duplicateCustomer id slot] else [])
        .duplicateCustomer = if id < problem.size ∧ id ∈ earlier then 1 else 0 := by
      by_cases again : id ∈ earlier <;> simp [tally, Violation.kind, again, inside]
    rw [tally_append, first, Nat.add_eq_left]
    split
    · rfl
    · split <;> rfl

theorem tally_bodyDefects_duplicate (slot : Slot) (earlier ids : List Nat) :
    tally (bodyDefects problem slot earlier ids) .duplicateCustomer =
      repeats problem earlier ids := by
  induction ids generalizing earlier with
  | nil => rfl
  | cons id rest ih => rw [bodyDefects, tally_append, ih, tally_visitDefects_duplicate, repeats]

theorem tally_scan_duplicate (earlier : List Nat) (entries : List (Slot × Route)) :
    tally (scan problem earlier entries) .duplicateCustomer =
      repeats problem earlier (entries.flatMap (·.2.body)) := by
  induction entries generalizing earlier with
  | nil => rfl
  | cons entry rest ih =>
    rw [scan, tally_append, tally_append, ih, tally_bodyDefects_duplicate, tally_routeDefects,
      List.flatMap_cons, repeats_append]
    simp [flawed]

theorem card_distinct_append (problem : Problem K) (earlier : List Nat) (id : Nat) :
    (if id < problem.size ∧ id ∈ earlier then 1 else 0) +
        (distinct problem (earlier ++ [id])).card =
      (distinct problem earlier).card + if id < problem.size then 1 else 0 := by
  by_cases inside : id < problem.size
  · have grown : distinct problem (earlier ++ [id]) = insert id (distinct problem earlier) := by
      ext other
      simp [distinct, inside]
    have member : id ∈ distinct problem earlier ↔ id ∈ earlier := by
      simp [distinct, inside]
    -- A repeated visit is counted on the left, a first one among the distinct locations.
    by_cases again : id ∈ earlier
    · rw [grown, Finset.insert_eq_of_mem (member.2 again), if_pos ⟨inside, again⟩, if_pos inside,
        Nat.add_comm]
    · rw [grown, Finset.card_insert_of_notMem fun here => again (member.1 here),
        if_neg fun both => again both.2, if_pos inside, Nat.zero_add]
  · have same : distinct problem (earlier ++ [id]) = distinct problem earlier := by
      simp [distinct, List.filter_append, inside]
    rw [same, if_neg fun both => inside both.1, if_neg inside, Nat.zero_add, Nat.add_zero]

/-- Every visit to the table is a repeated one or the first at its location. -/
theorem repeats_add_card (problem : Problem K) (earlier ids : List Nat) :
    repeats problem earlier ids + (distinct problem (earlier ++ ids)).card =
      (distinct problem earlier).card + ids.countP (· < problem.size) := by
  -- Each visit joins the earlier ones before the next is judged.
  induction ids generalizing earlier with
  | nil => simp [repeats]
  | cons id rest ih =>
    have first := card_distinct_append problem earlier id
    have others := ih (earlier ++ [id])
    rw [List.append_assoc, List.singleton_append] at others
    rw [repeats, List.countP_cons]
    simp only [decide_eq_true_eq] at *
    omega

theorem repeats_perm {first second : List Nat} (same : first.Perm second) :
    repeats problem [] first = repeats problem [] second := by
  have card : distinct problem first = distinct problem second :=
    List.toFinset_eq_of_perm _ _ (same.filter _)
  have count := same.countP_eq fun id => decide (id < problem.size)
  have ofFirst := repeats_add_card problem [] first
  have ofSecond := repeats_add_card problem [] second
  rw [List.nil_append] at ofFirst ofSecond
  rw [card] at ofFirst
  omega

/-! The defects of a solution as a whole. -/

theorem tally_listDefects (vehicles : VehicleKind) (expected actual : Nat) (kind : Kind) :
    tally (listDefects vehicles expected actual) kind =
      if kind = .fleetMismatch ∧ expected ≠ actual then 1 else 0 := by
  unfold listDefects
  by_cases same : expected = actual <;> cases kind <;> simp [tally, Violation.kind, same]

theorem tally_map_missing (ids : List Nat) (kind : Kind) :
    tally (ids.map .missingCustomer) kind = if kind = .missingCustomer then ids.length else 0 := by
  rw [tally, List.countP_map]
  split
  next missing =>
    subst missing
    exact List.countP_eq_length.2 fun _ _ => rfl
  next other =>
    apply List.countP_eq_zero.2
    intro _ _
    simp [Violation.kind, Ne.symm other]

/-- The lengths of the lists, the visits and the weights of the routes account for every defect. -/
theorem tally_violations (solution : Solution K) (kind : Kind) :
    tally (problem.violations solution) kind =
      (if kind = .fleetMismatch ∧ problem.trucks ≠ solution.plan.trucks.length then 1 else 0) +
      (if kind = .fleetMismatch ∧ problem.drones ≠ solution.plan.drones.length then 1 else 0) +
      (if kind = .duplicateCustomer then repeats problem [] (visits problem solution.plan)
        else solution.plan.load problem.fleet (weigh problem kind)) +
      (if kind = .missingCustomer then (unserved problem (visits problem solution.plan)).length
        else 0) := by
  have scanned : tally (scan problem [] (held problem solution.plan)) kind =
      if kind = .duplicateCustomer then repeats problem [] (visits problem solution.plan)
        else solution.plan.load problem.fleet (weigh problem kind) := by
    split
    next repeated =>
      rw [repeated]
      exact tally_scan_duplicate [] _
    next other => exact tally_scan other [] _
  rw [Problem.violations, tally_append, tally_append, tally_append, tally_listDefects,
    tally_listDefects, scanned, tally_map_missing]
  rfl

theorem unserved_perm {first second : List Nat} (same : first.Perm second) :
    unserved problem first = unserved problem second := by
  unfold unserved
  simp only [same.mem_iff]

/-- The defects of the visits alone are found in the list of all visits. -/
theorem load_weigh_of_visits {plan : Plan} {accepts : Nat → Bool}
    (sound : ∀ vehicle route, flawed kind vehicle route = false)
    (blind : ∀ vehicle, faulty problem kind vehicle = accepts) :
    plan.load problem.fleet (weigh problem kind) = (visits problem plan).countP accepts := by
  unfold Plan.load visits
  rw [List.countP_flatMap]
  congr 1
  refine List.map_congr_left fun (slot, route) _ => ?_
  simp [weigh, sound, blind]

/-- What becomes of the defects where no list is added or dropped, the visits are the same, and
the routes weigh no more. -/
theorem tally_le_of_visits {before after : Solution K}
    (trucks : after.plan.trucks.length = before.plan.trucks.length)
    (drones : after.plan.drones.length = before.plan.drones.length)
    (same : (visits problem after.plan).Perm (visits problem before.plan))
    (lighter : after.plan.load problem.fleet (weigh problem kind) ≤
      before.plan.load problem.fleet (weigh problem kind)) :
    tally (problem.violations after) kind ≤ tally (problem.violations before) kind := by
  rw [tally_violations, tally_violations, trucks, drones, repeats_perm same, unserved_perm same]
  -- Repeated visits are weighed all together, other defects route by route.
  refine Nat.add_le_add_right (Nat.add_le_add_left ?_ _) _
  split
  · exact Nat.le_refl _
  · exact lighter

end Violation

end TruckDrone
