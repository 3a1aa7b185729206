import TruckDrone.Problem
import TruckDrone.Proofs.Plan.Replacement

/-! Whom a vehicle may serve. Asking about an id outside the customer table is a fault; an
answer, where there is one, says what the table says. -/

set_option autoImplicit false

namespace TruckDrone

variable {K : Type}

namespace Problem

variable (problem : Problem K)

def suits (vehicle : Vehicle) (id : Nat) : Bool :=
  !vehicle.isDrone || (problem.customers[id]?).any Customer.dronable

def Knows (plan : Plan) : Prop := ∀ route ∈ plan.allRoutes, ∀ id ∈ route.body, id < problem.size

instance (plan : Plan) : Decidable (problem.Knows plan) :=
  inferInstanceAs (Decidable (∀ route ∈ plan.allRoutes, ∀ id ∈ route.body, id < problem.size))

variable {problem} {vehicle : Vehicle}

theorem Knows.lt_size {plan : Plan} (known : problem.Knows plan) {slot : Slot} {route : Route}
    (occupied : plan.occupant? slot = some route) {id : Nat} (member : id ∈ route.body) :
    id < problem.size :=
  known route (Plan.mem_allRoutes occupied) id member

theorem Knows.replace {plan : Plan} (known : problem.Knows plan)
    {placed : List (Slot × Option Route)} (keeps : Plan.Keeps placed)
    (inside : ∀ slot route, (slot, some route) ∈ placed → ∀ id ∈ route.body, id < problem.size) :
    problem.Knows (plan.replace placed) := by
  intro route member
  obtain ⟨slot, occupied⟩ := Plan.exists_slot member
  by_cases listed : slot ∈ placed.map Prod.fst
  · rw [Plan.occupant?_replace keeps] at occupied
    obtain ⟨old, -, rfl⟩ := Option.map_eq_some_iff.1 occupied
    exact inside slot _ (Plan.mem_of_listed keeps listed old)
  · rw [Plan.occupant?_replace_of_not_listed keeps _ listed] at occupied
    exact fun _ => known.lt_size occupied

theorem eq_suits_of_admits {id : Nat} {answer : Bool} (served : id ≠ depotId)
    (asked : problem.admits vehicle id = .ok answer) : answer = problem.suits vehicle id := by
  unfold admits at asked
  unfold suits
  cases drone : vehicle.isDrone with
  | false =>
    rw [drone] at asked
    exact (Except.ok.inj asked).symm
  | true =>
    rw [drone, Bool.true_and, if_pos (bne_iff_ne.2 served)] at asked
    cases present : problem.customers[id]? with
    | none => simp [dronable, Sequence.entry, present, Except.map] at asked
    | some customer => simpa [dronable, Sequence.entry, present, Except.map, eq_comm] using asked

theorem admits_eq_ok {id : Nat} (served : id ≠ depotId) (inside : id < problem.size) :
    problem.admits vehicle id = .ok (problem.suits vehicle id) := by
  unfold admits suits
  cases drone : vehicle.isDrone with
  | false => rfl
  | true =>
    rw [Bool.true_and, if_pos (bne_iff_ne.2 served), dronable, Sequence.entry_eq_ok inside,
      List.getElem?_eq_getElem inside]
    rfl

theorem admits_ne_error {id : Nat} (served : id ≠ depotId) (inside : id < problem.size)
    (fault : Fault) : problem.admits vehicle id ≠ .error fault := by
  rw [admits_eq_ok served inside]
  intro same
  cases same

theorem admits_depot : problem.admits vehicle depotId = .ok true := by
  simp [admits]

theorem eq_all_of_admitsAll {ids : List Nat} {answer : Bool}
    (asked : problem.admitsAll vehicle ids = .ok answer) :
    answer = ids.all fun id => id == depotId || problem.suits vehicle id := by
  induction ids with
  | nil => exact (Except.ok.inj asked).symm
  | cons head tail ih =>
    obtain ⟨first, askedFirst, rest⟩ := Fault.bind_eq_ok.1 asked
    have same : first = (head == depotId || problem.suits vehicle head) := by
      by_cases depot : head = depotId
      · rw [depot, admits_depot] at askedFirst
        rw [depot]
        exact (Except.ok.inj askedFirst).symm
      · rw [beq_false_of_ne depot, Bool.false_or]
        exact eq_suits_of_admits depot askedFirst
    rw [List.all_cons, ← same]
    -- The first refusal ends the questions, but the answer is as if all had been asked.
    cases first with
    | false => exact (Except.ok.inj rest).symm
    | true => exact ih rest

theorem admitsAll_eq_ok {ids : List Nat} (inside : ∀ id ∈ ids, id ≠ depotId → id < problem.size) :
    problem.admitsAll vehicle ids =
      .ok (ids.all fun id => id == depotId || problem.suits vehicle id) := by
  induction ids with
  | nil => rfl
  | cons head tail ih =>
    have rest := ih fun id member => inside id (List.mem_cons_of_mem _ member)
    have asked : problem.admits vehicle head =
        .ok (head == depotId || problem.suits vehicle head) := by
      by_cases depot : head = depotId
      · rw [depot, admits_depot]
        rfl
      · rw [admits_eq_ok depot (inside head (List.mem_cons_self ..) depot),
          beq_false_of_ne depot, Bool.false_or]
    rw [admitsAll, asked, Fault.ok_bind, List.all_cons]
    cases head == depotId || problem.suits vehicle head with
    | false => rfl
    | true => exact rest

theorem admitsAll_ne_error {ids : List Nat} (inside : ∀ id ∈ ids, id ≠ depotId → id < problem.size)
    (fault : Fault) : problem.admitsAll vehicle ids ≠ .error fault := by
  rw [admitsAll_eq_ok inside]
  intro same
  cases same

end Problem

end TruckDrone
