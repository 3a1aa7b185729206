import TruckDrone.Binary64
import TruckDrone.Proofs.Plan.Fleet
import TruckDrone.Proofs.Violation.Tally

/-! Where the defects of the visits are reported. Each kind of them is found at just the visits
that have it, in the order in which the fleet is scanned; so the visits that count are as many as
the customers, but for those that are reported. -/

set_option autoImplicit false

namespace TruckDrone

variable {K : Type}

namespace Violation

def itinerary (problem : Problem K) (plan : Plan) : List (Slot × Nat) :=
  (held problem plan).flatMap fun (slot, route) => route.body.map (slot, ·)

/-- The visit that a violation is about; those of lists and routes are about none. -/
def visit? : Violation → Option (Slot × Nat)
  | .duplicateCustomer id slot => some (slot, id)
  | .unknownCustomer id slot => some (slot, id)
  | .nonDronable id drone position => some (⟨.drone drone, position⟩, id)
  | _ => none

def reported (violations : List Violation) (kind : Kind) : List (Slot × Nat) :=
  violations.filterMap fun violation => if violation.kind = kind then violation.visit? else none

theorem reported_append (first second : List Violation) (kind : Kind) :
    reported (first ++ second) kind = reported first kind ++ reported second kind :=
  List.filterMap_append

theorem mem_reported {violations : List Violation} {violation : Violation}
    (member : violation ∈ violations) {visit : Slot × Nat}
    (about : violation.visit? = some visit) : visit ∈ reported violations violation.kind :=
  List.mem_filterMap.2 ⟨violation, member, (if_pos rfl).trans about⟩

variable {problem : Problem K} {kind : Kind}

/-! Defects that a visit has whatever was visited before. -/

theorem reported_visitDefects (other : kind ≠ .duplicateCustomer) (slot : Slot)
    (earlier : List Nat) (id : Nat) : reported (visitDefects problem slot earlier id) kind =
      if faulty problem kind slot.vehicle id then [(slot, id)] else [] := by
  unfold visitDefects
  cases present : problem.customers[id]? with
  | none =>
    cases kind <;> simp [reported, Violation.kind, visit?, faulty, Problem.refuses, present]
  | some customer =>
    have repeated : reported (if id ∈ earlier then [.duplicateCustomer id slot] else []) kind =
        [] := by
      split
      · simp [reported, Violation.kind, other.symm]
      · rfl
    rw [reported_append, repeated, List.nil_append]
    cases slot with
    | mk vehicle position =>
      cases vehicle with
      | truck i =>
        cases kind <;>
          simp [reported, faulty, Problem.refuses, Vehicle.isDrone, Vehicle.kind, present]
      | drone i =>
        cases dronable : customer.dronable <;> cases kind <;>
          simp [reported, Violation.kind, visit?, faulty, Problem.refuses, Vehicle.isDrone,
            Vehicle.kind, present, dronable]

theorem reported_bodyDefects (other : kind ≠ .duplicateCustomer) (slot : Slot)
    (earlier ids : List Nat) : reported (bodyDefects problem slot earlier ids) kind =
      (ids.map (slot, ·)).filter fun visit => faulty problem kind visit.1.vehicle visit.2 := by
  induction ids generalizing earlier with
  | nil => rfl
  | cons id rest ih =>
    rw [bodyDefects, reported_append, ih, reported_visitDefects other, List.map_cons,
      List.filter_cons]
    split <;> rfl

theorem reported_routeDefects (slot : Slot) (route : Route) (kind : Kind) :
    reported (routeDefects slot route) kind = [] := by
  unfold routeDefects
  by_cases foreign : route.kind = slot.vehicle.kind <;> by_cases empty : route.isEmpty <;>
    simp [reported, visit?, foreign, empty]

theorem reported_scan (other : kind ≠ .duplicateCustomer) (earlier : List Nat)
    (entries : List (Slot × Route)) : reported (scan problem earlier entries) kind =
      (entries.flatMap fun (slot, route) => route.body.map (slot, ·)).filter fun visit =>
        faulty problem kind visit.1.vehicle visit.2 := by
  induction entries generalizing earlier with
  | nil => rfl
  | cons entry rest ih =>
    rw [scan, reported_append, reported_append, reported_routeDefects, List.nil_append,
      reported_bodyDefects other, ih, List.flatMap_cons, List.filter_append]

/-! Repeated visits. -/

/-- How many visits to a location are still to come that are no repetition. -/
def firstVisits (earlier : List Nat) (id : Nat) : Nat := if id ∈ earlier then 0 else 1

theorem firstVisits_append (earlier ids : List Nat) (id : Nat) :
    firstVisits (earlier ++ ids) id = firstVisits earlier id - ids.count id := by
  unfold firstVisits
  by_cases before : id ∈ earlier
  · simp [before]
  · by_cases now : id ∈ ids
    · have some := List.count_pos_iff.2 now
      rw [if_pos (List.mem_append_right _ now), if_neg before]
      omega
    · simp [now, before, List.count_eq_zero.2 now]

theorem length_filter_visits (slot : Slot) (ids : List Nat) (id : Nat) :
    ((ids.map (slot, ·)).filter (·.2 = id)).length = ids.count id := by
  rw [List.filter_map, List.length_map, List.count_eq_length_filter]
  rfl

theorem reported_visitDefects_duplicate (slot : Slot) (earlier : List Nat) (id : Nat) :
    reported (visitDefects problem slot earlier id) .duplicateCustomer =
      if id < problem.size ∧ id ∈ earlier then [(slot, id)] else [] := by
  unfold visitDefects
  cases present : problem.customers[id]? with
  | none =>
    have outside : ¬ id < problem.size := Nat.not_lt.2 (List.getElem?_eq_none_iff.1 present)
    simp [reported, Violation.kind, outside]
  | some customer =>
    have inside : id < problem.size := (List.getElem?_eq_some_iff.1 present).1
    have first : reported (if id ∈ earlier then [.duplicateCustomer id slot] else [])
        .duplicateCustomer = if id < problem.size ∧ id ∈ earlier then [(slot, id)] else [] := by
      by_cases again : id ∈ earlier <;> simp [reported, Violation.kind, visit?, again, inside]
    rw [reported_append, first, List.append_right_eq_self]
    split
    · rfl
    · split <;> rfl

/-- Repeated visits are reported in the order of the scan, and only to locations of the table. -/
theorem reported_duplicate_sublist (earlier : List Nat) (entries : List (Slot × Route)) :
    (reported (scan problem earlier entries) .duplicateCustomer).Sublist
      ((entries.flatMap fun (slot, route) => route.body.map (slot, ·)).filter
        (·.2 < problem.size)) := by
  have body : ∀ (slot : Slot) (earlier ids : List Nat),
      (reported (bodyDefects problem slot earlier ids) .duplicateCustomer).Sublist
        ((ids.map (slot, ·)).filter (·.2 < problem.size)) := by
    intro slot earlier ids
    induction ids generalizing earlier with
    | nil => exact .slnil
    | cons id rest ih =>
      rw [bodyDefects, reported_append, reported_visitDefects_duplicate, List.map_cons]
      by_cases inside : id < problem.size
      · rw [List.filter_cons_of_pos (by simpa using inside)]
        split
        · exact (ih _).cons_cons _
        · exact (ih _).cons _
      · rw [List.filter_cons_of_neg (by simpa using inside), if_neg fun both => inside both.1]
        exact ih _
  induction entries generalizing earlier with
  | nil => exact .slnil
  | cons entry rest ih =>
    rw [scan, reported_append, reported_append, reported_routeDefects, List.nil_append,
      List.flatMap_cons, List.filter_append]
    exact (body ..).append (ih _)

variable {id : Nat}

theorem reported_visitDefects_again (inside : id < problem.size) (slot : Slot)
    (earlier : List Nat) (visited : Nat) :
    (reported (visitDefects problem slot earlier visited) .duplicateCustomer).filter (·.2 = id) =
      ([(slot, visited)].filter (·.2 = id)).drop (firstVisits earlier id) := by
  rw [reported_visitDefects_duplicate, firstVisits]
  by_cases same : visited = id
  · by_cases again : id ∈ earlier <;> simp [same, inside, again]
  · split <;> simp [same]

theorem reported_bodyDefects_again (inside : id < problem.size) (slot : Slot)
    (earlier ids : List Nat) :
    (reported (bodyDefects problem slot earlier ids) .duplicateCustomer).filter (·.2 = id) =
      ((ids.map (slot, ·)).filter (·.2 = id)).drop (firstVisits earlier id) := by
  induction ids generalizing earlier with
  | nil => exact List.drop_nil.symm
  | cons visited rest ih =>
    have joined : (visited :: rest).map (slot, ·) = [visited].map (slot, ·) ++ rest.map (slot, ·) :=
      rfl
    rw [bodyDefects, reported_append, List.filter_append, ih, firstVisits_append,
      reported_visitDefects_again inside, joined, List.filter_append, List.drop_append,
      ← length_filter_visits slot]
    rfl

theorem reported_scan_again (inside : id < problem.size) (earlier : List Nat)
    (entries : List (Slot × Route)) :
    (reported (scan problem earlier entries) .duplicateCustomer).filter (·.2 = id) =
      ((entries.flatMap fun (slot, route) => route.body.map (slot, ·)).filter
        (·.2 = id)).drop (firstVisits earlier id) := by
  induction entries generalizing earlier with
  | nil => exact List.drop_nil.symm
  | cons entry rest ih =>
    rw [scan, reported_append, reported_append, reported_routeDefects, List.nil_append,
      List.filter_append, reported_bodyDefects_again inside, ih, firstVisits_append,
      List.flatMap_cons, List.filter_append, List.drop_append, ← length_filter_visits entry.1]

/-! The report as a whole. -/

variable {solution : Solution K}

theorem reported_violations (kind : Kind) : reported (problem.violations solution) kind =
    reported (scan problem [] (held problem solution.plan)) kind := by
  have lists : ∀ vehicles expected actual,
      reported (listDefects vehicles expected actual) kind = [] := by
    intro vehicles expected actual
    unfold listDefects
    split <;> simp [reported, visit?]
  have missing : ∀ ids : List Nat, reported (ids.map .missingCustomer) kind = [] := by
    intro ids
    simp [reported, visit?]
  rw [Problem.violations, reported_append, reported_append, reported_append, lists, lists, missing,
    List.nil_append, List.nil_append, List.append_nil]

theorem map_snd_itinerary (problem : Problem K) (plan : Plan) :
    (itinerary problem plan).map Prod.snd = visits problem plan := by
  rw [itinerary, List.map_flatMap, visits]
  congr 1
  funext entry
  simp [List.map_map, Function.comp_def]

theorem mem_visits_iff_itinerary {plan : Plan} {id : Nat} :
    id ∈ visits problem plan ↔ ∃ slot, (slot, id) ∈ itinerary problem plan := by
  rw [← map_snd_itinerary]
  simp

theorem tally_scan_missing (earlier : List Nat) (entries : List (Slot × Route)) :
    tally (scan problem earlier entries) .missingCustomer = 0 := by
  rw [tally_scan (by decide)]
  apply List.sum_eq_zero
  intro weight member
  obtain ⟨entry, -, rfl⟩ := List.mem_map.1 member
  simp [weigh, flawed, faulty]

/-- Every customer is unserved or among the distinct locations that are visited. -/
theorem length_unserved_add_card (problem : Problem K) {ids : List Nat} (served : depotId ∉ ids) :
    (unserved problem ids).length + (distinct problem ids).card = problem.customerCount := by
  have met : distinct problem ids =
      ((Sequence.span 1 problem.size).filter (· ∈ ids)).toFinset := by
    ext id
    have customer : id ∈ ids → 1 ≤ id := fun member =>
      Nat.one_le_iff_ne_zero.2 fun depot : id = depotId => served (depot ▸ member)
    simp only [distinct, List.mem_toFinset, List.mem_filter, Sequence.mem_span, decide_eq_true_eq]
    exact ⟨fun both => ⟨⟨customer both.1, both.2⟩, both.1⟩, fun both => ⟨both.2, both.1.2⟩⟩
  have distinctSpan : (Sequence.span 1 problem.size).Nodup := List.nodup_range'
  have split := List.length_eq_length_filter_add (l := Sequence.span 1 problem.size)
    fun id => decide (id ∉ ids)
  have size : (Sequence.span 1 problem.size).length = problem.customerCount := List.length_range'
  rw [met, List.toFinset_card_of_nodup (distinctSpan.filter _), ← size, split, unserved]
  simp

theorem depot_not_mem_visits (problem : Problem K) (plan : Plan) :
    depotId ∉ visits problem plan := by
  intro member
  obtain ⟨entry, -, visited⟩ := List.mem_flatMap.1 member
  exact entry.2.depotFree visited

theorem faulty_unknown (problem : Problem K) :
    faulty problem .unknownCustomer = fun _ id => decide (problem.size ≤ id) := by
  funext vehicle id
  rw [Bool.eq_iff_iff, decide_eq_true_iff]
  simp [faulty, Problem.size]

theorem tally_unknown (problem : Problem K) (solution : Solution K) :
    tally (problem.violations solution) .unknownCustomer =
      (visits problem solution.plan).countP (problem.size ≤ ·) := by
  have weighed : solution.plan.load problem.fleet (weigh problem .unknownCustomer) =
      (visits problem solution.plan).countP (problem.size ≤ ·) :=
    load_weigh_of_visits (fun _ _ => rfl) fun vehicle => congrFun (faulty_unknown problem) vehicle
  simp [tally_violations, weighed]

theorem tally_missing (problem : Problem K) (solution : Solution K) :
    tally (problem.violations solution) .missingCustomer =
      (unserved problem (visits problem solution.plan)).length := by
  rw [Problem.violations, tally_append, tally_append, tally_append, tally_listDefects,
    tally_listDefects, tally_scan_missing, tally_map_missing]
  simp [visits]

theorem tally_duplicate (problem : Problem K) (solution : Solution K) :
    tally (problem.violations solution) .duplicateCustomer =
      repeats problem [] (visits problem solution.plan) := by
  simp [tally_violations]

/-- Where no list is beyond the fleet, the visits and the missing customers are as many as the
customers, the repeated visits and the unknown ids. -/
theorem servedCount_add_missing (trucks : solution.plan.trucks.length ≤ problem.trucks)
    (drones : solution.plan.drones.length ≤ problem.drones) :
    solution.plan.servedCount + tally (problem.violations solution) .missingCustomer =
      problem.customerCount + tally (problem.violations solution) .duplicateCustomer +
        tally (problem.violations solution) .unknownCustomer := by
  have served : solution.plan.servedCount = (visits problem solution.plan).length := by
    rw [visits_eq_of_le trucks drones, Plan.servedCount]
  have again := repeats_add_card problem [] (visits problem solution.plan)
  have met := length_unserved_add_card problem (depot_not_mem_visits problem solution.plan)
  have split := List.length_eq_countP_add_countP (l := visits problem solution.plan)
    fun id => decide (id < problem.size)
  rw [served, tally_missing, tally_duplicate, tally_unknown]
  simp only [List.nil_append, decide_eq_true_eq, Nat.not_lt] at again split
  have none : (distinct problem []).card = 0 := rfl
  omega

end Violation

open Violation

/-- Of the visits that the scan of the fleet meets, those to ids beyond the table are reported as
unknown, those of a drone to a location that it must not serve as such, and all visits to a
location of the table but the first as repeated; a visit beyond the table is reported as nothing
else. The customers without a visit come last, in increasing order. So where no list is beyond the
fleet, the visits are accounted for. -/
theorem Problem.violations_located (problem : Problem K) (solution : Solution K) :
    let found := problem.violations solution
    let met := itinerary problem solution.plan
    (∀ id < problem.size, (reported found .duplicateCustomer).filter (·.2 = id) =
      (met.filter (·.2 = id)).tail) ∧
    (reported found .duplicateCustomer).Sublist (met.filter (·.2 < problem.size)) ∧
    reported found .unknownCustomer = met.filter (problem.size ≤ ·.2) ∧
    reported found .nonDronable =
      met.filter (fun visit => problem.refuses visit.1.vehicle visit.2) ∧
    (∀ violation ∈ found, ∀ slot id, violation.visit? = some (slot, id) → problem.size ≤ id →
      violation = .unknownCustomer id slot) ∧
    (∃ (others : List Violation) (missing : List Nat),
      found = others ++ missing.map .missingCustomer ∧ tally others .missingCustomer = 0 ∧
      missing.Pairwise (· < ·) ∧
      ∀ id, id ∈ missing ↔ (1 ≤ id ∧ id < problem.size) ∧ ∀ slot, (slot, id) ∉ met) ∧
    (solution.plan.trucks.length ≤ problem.trucks → solution.plan.drones.length ≤ problem.drones →
      solution.plan.servedCount + tally found .missingCustomer =
        problem.customerCount + tally found .duplicateCustomer + tally found .unknownCustomer) := by
  intro found met
  have repeated : (reported found .duplicateCustomer).Sublist
      (met.filter (·.2 < problem.size)) := by
    rw [reported_violations]
    exact reported_duplicate_sublist [] _
  have refused : reported found .nonDronable =
      met.filter (fun visit => problem.refuses visit.1.vehicle visit.2) := by
    rw [reported_violations, reported_scan (by decide)]
    rfl
  refine ⟨?again, repeated, ?unknown, refused, ?only, ?missing, servedCount_add_missing⟩
  case again =>
    intro id inside
    rw [reported_violations, reported_scan_again inside, ← List.drop_one]
    rfl
  case unknown =>
    rw [reported_violations, reported_scan (by decide), faulty_unknown]
    rfl
  case only =>
    intro violation member slot id about beyond
    have listed := mem_reported member about
    cases violation with
    | duplicateCustomer =>
      have inside := (List.mem_filter.1 (repeated.subset listed)).2
      exact absurd (of_decide_eq_true inside) (Nat.not_lt.2 beyond)
    | unknownCustomer =>
      cases about
      rfl
    | nonDronable =>
      rw [Violation.kind, refused, List.mem_filter] at listed
      simp [refuses, List.getElem?_eq_none beyond] at listed
    | _ => cases about
  case missing =>
    refine ⟨_, unserved problem (visits problem solution.plan), rfl, ?_, ?_, ?_⟩
    · rw [tally_append, tally_append, tally_listDefects, tally_listDefects, tally_scan_missing]
      simp
    · exact (pairwise_span _ _).filter _
    · intro id
      rw [unserved, List.mem_filter, Sequence.mem_span, decide_eq_true_iff,
        mem_visits_iff_itinerary, not_exists]

/-- Truck 0 meets an unknown id twice and repeats a customer, the drone one that it must not serve;
truck 1 has no list. -/
theorem Problem.violations_located_malformed :
    let problem : Problem Binary64 :=
      ⟨[.depot 0 0, ⟨1, 0, 1, false⟩, ⟨2, 1, 0, true⟩, ⟨3, 1, 1, true⟩], 2, 1, 0, fun _ => 0⟩
    let plan : Plan := ⟨[[.truck [1, 9, 1], .truck []]], [[.drone [2, 9], .drone [1, 2]]]⟩
    let found := problem.violations (problem.assess plan)
    plan.trucks.length ≤ problem.trucks ∧ plan.drones.length ≤ problem.drones ∧
    reported found .unknownCustomer = [(⟨.truck 0, 0⟩, 9), (⟨.drone 0, 0⟩, 9)] ∧
    (reported found .duplicateCustomer).filter (·.2 = 1) =
      [(⟨.truck 0, 0⟩, 1), (⟨.drone 0, 1⟩, 1)] ∧
    reported found .nonDronable = [(⟨.drone 0, 1⟩, 1)] ∧
    (∃ violation ∈ found, violation.visit? = some (⟨.drone 0, 0⟩, 9) ∧
      violation = .unknownCustomer 9 ⟨.drone 0, 0⟩) ∧
    plan.servedCount + tally found .missingCustomer =
      problem.customerCount + tally found .duplicateCustomer + tally found .unknownCustomer ∧
    tally found .missingCustomer = 1 := by
  intro problem plan found
  obtain ⟨again, -, unknown, refused, only, -, balance⟩ :=
    violations_located problem (problem.assess plan)
  have listed : .unknownCustomer 9 ⟨.drone 0, 0⟩ ∈ found := by decide
  exact ⟨by decide, by decide, unknown, again 1 (by decide), refused,
    ⟨_, listed, rfl, only _ listed _ _ rfl (by decide)⟩, balance (by decide) (by decide),
    by decide⟩

end TruckDrone
