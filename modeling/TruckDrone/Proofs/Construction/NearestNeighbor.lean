import TruckDrone.Binary64
import TruckDrone.Construction.NearestNeighbor
import TruckDrone.Proofs.Construction.Tours

/-! Tours that grow by the nearest customer, round by round. As long as a customer is pending some
vehicle goes on, so the rounds end with every customer served. -/

set_option autoImplicit false

namespace TruckDrone.NearestNeighbor

variable {K : Type} {problem : Problem K}

def Fair (problem : Problem K) (tours : Tours) : Prop :=
  ∀ entry ∈ tours, ∀ id ∈ entry.2, id ∈ problem.customerIds ∧ problem.suits entry.1 id = true

structure Shares (problem : Problem K) (tours : Tours) (pending : List Nat) : Prop where
  vehicles : tours.map Prod.fst = problem.fleet
  fair : Fair problem tours
  all : (tours.flatMap Prod.snd ++ pending).Perm problem.customerIds

theorem idle_shares (problem : Problem K) :
    Shares problem (.idle problem) problem.customerIds := by
  constructor
  · exact (Tours.idle_deals problem).vehicles
  · simp [Fair, Tours.idle]
  · exact (Tours.idle_deals problem).visits.append_right _

theorem Shares.mem_customerIds {tours : Tours} {pending : List Nat}
    (shares : Shares problem tours pending) : ∀ id ∈ pending, id ∈ problem.customerIds :=
  fun _ member => shares.all.mem_iff.1 (List.mem_append_right _ member)

theorem cons_append_erase_perm {pending : List Nat} {id : Nat} (member : id ∈ pending)
    (served : List Nat) :
    List.Perm (id :: (served ++ pending.erase id)) (served ++ pending) := by
  calc List.Perm (id :: (served ++ pending.erase id))
        (served ++ id :: pending.erase id) := List.perm_middle.symm
    List.Perm _ (served ++ pending) := (List.perm_cons_erase member).symm.append_left _

theorem filterM_admits_eq_ok {pending : List Nat}
    (customers : ∀ id ∈ pending, id ∈ problem.customerIds) (vehicle : Vehicle) :
    pending.filterM (problem.admits vehicle) = .ok (pending.filter (problem.suits vehicle)) := by
  apply Fault.filterM_eq_ok
  intro id member
  obtain ⟨positive, known⟩ := Problem.mem_customerIds.1 (customers id member)
  exact Problem.admits_eq_ok (Nat.one_le_iff_ne_zero.1 positive) known

variable [Ranked K] {distances : DistanceTable K}

theorem vehicles_round {tours extended : Tours} {pending left : List Nat}
    (done : round problem distances tours pending = .ok (extended, left)) :
    extended.map Prod.fst = tours.map Prod.fst := by
  induction tours generalizing extended pending left with
  | nil => cases done; rfl
  | cons entry rest ih =>
    obtain ⟨vehicle, ids⟩ := entry
    obtain ⟨candidates, -, done⟩ := Fault.bind_eq_ok.1 done
    obtain ⟨nearest, -, done⟩ := Fault.bind_eq_ok.1 done
    cases nearest with
    | none =>
      obtain ⟨⟨others, _⟩, further, done⟩ := Fault.bind_eq_ok.1 done
      cases done
      exact congrArg (vehicle :: ·) (ih further)
    | some id =>
      obtain ⟨⟨others, _⟩, further, done⟩ := Fault.bind_eq_ok.1 done
      cases done
      exact congrArg (vehicle :: ·) (ih further)

theorem vehicles_rounds {tours final : Tours} {pending : List Nat}
    (done : rounds problem distances tours pending = .ok (some final)) :
    final.map Prod.fst = tours.map Prod.fst := by
  fun_induction rounds problem distances tours pending with
  | case1 tours pending none => cases done; rfl
  | case2 tours pending some fault failed => cases done
  | case3 tours pending some extended left made shorter ih =>
    exact (ih done).trans (vehicles_round made)
  | case4 tours pending some extended left made stuck => cases done

theorem length_routes_construct {solution : Solution K}
    (made : construct problem distances = .ok (some solution)) (vehicle : Vehicle) :
    (solution.plan.routes vehicle).length ≤ 1 := by
  unfold construct at made
  split at made
  · obtain ⟨tours, grown, made⟩ := Fault.bind_eq_ok.1 made
    cases tours with
    | none => cases made
    | some tours =>
      have vehicles := (vehicles_rounds grown).trans (Tours.idle_deals problem).vehicles
      obtain ⟨first, solved, same⟩ := Fault.map_eq_ok.1 made
      cases same
      exact Tours.length_routes_toSolution vehicles solved vehicle
  · cases made

/-! One round. -/

theorem nearest?_cons_cons {place best id : Nat} (row : place < distances.size)
    (incumbent : best < distances.size) (candidate : id < distances.size) (rest : List Nat) :
    ∃ nearer, (nearer = best ∨ nearer = id) ∧
      nearest? distances place (best :: id :: rest) =
        nearest? distances place (nearer :: rest) := by
  have known : ∀ finish < distances.size, ∃ distance, distances.get place finish = .ok distance :=
    fun finish column => ⟨_, dif_pos (distances.place_lt row column)⟩
  obtain ⟨near, knownBest⟩ := known best incumbent
  obtain ⟨far, knownId⟩ := known id candidate
  refine ⟨if Ranked.rank far < Ranked.rank near then id else best, ?_, ?_⟩
  · split
    · exact .inr rfl
    · exact .inl rfl
  · rw [nearest?, List.foldlM_cons, knownBest, knownId]
    rfl

theorem nearest?_eq_ok {place : Nat} {ids : List Nat} (row : place < distances.size)
    (inside : ∀ id ∈ ids, id < distances.size) (someone : ids ≠ []) :
    ∃ id ∈ ids, nearest? distances place ids = .ok (some id) := by
  obtain ⟨best, rest, rfl⟩ := List.exists_cons_of_ne_nil someone
  induction rest generalizing best with
  | nil => exact ⟨best, List.mem_cons_self .., rfl⟩
  | cons id rest ih =>
    obtain ⟨incumbent, candidate, others⟩ : best < distances.size ∧ id < distances.size ∧
        ∀ other ∈ rest, other < distances.size := by
      simpa using inside
    obtain ⟨nearer, oneOf, same⟩ := nearest?_cons_cons row incumbent candidate rest
    obtain ⟨chosen, member, found⟩ := ih nearer
      (List.forall_mem_cons.2 ⟨by rcases oneOf with rfl | rfl <;> assumption, others⟩)
      (List.cons_ne_nil _ _)
    refine ⟨chosen, ?_, same.trans found⟩
    rcases List.mem_cons.1 member with rfl | later
    · rcases oneOf with rfl | rfl <;> simp
    · simp [later]

theorem round_cons (table : problem.size ≤ distances.size) {vehicle : Vehicle} {ids : List Nat}
    (served : ∀ id ∈ ids, id ∈ problem.customerIds) {pending : List Nat}
    (customers : ∀ id ∈ pending, id ∈ problem.customerIds) (rest : Tours) :
    (∀ id ∈ pending, problem.suits vehicle id = false) ∧
        round problem distances ((vehicle, ids) :: rest) pending =
          (fun done => ((vehicle, ids) :: done.1, done.2)) <$>
            round problem distances rest pending ∨
      ∃ id ∈ pending, problem.suits vehicle id = true ∧
        round problem distances ((vehicle, ids) :: rest) pending =
          (fun done => ((vehicle, ids ++ [id]) :: done.1, done.2)) <$>
            round problem distances rest (pending.erase id) := by
  have inside : ∀ id ∈ problem.customerIds, id < distances.size := fun id customer =>
    Nat.lt_of_lt_of_le (Problem.mem_customerIds.1 customer).2 table
  rw [round, filterM_admits_eq_ok customers, Fault.ok_bind]
  by_cases none : pending.filter (problem.suits vehicle) = []
  · refine .inl ⟨by simpa using none, ?_⟩
    rw [none, nearest?, Fault.ok_bind]
    rfl
  · have places : ∀ id ∈ pending.filter (problem.suits vehicle), id < distances.size :=
      fun id candidate => inside id (customers id (List.mem_of_mem_filter candidate))
    -- The vehicle stands at its last customer, or at the depot of a table that is not empty.
    have row : ids.getLast?.getD depotId < distances.size := by
      cases last : ids.getLast? with
      | none =>
        obtain ⟨id, candidate⟩ := List.exists_mem_of_ne_nil _ none
        exact Nat.zero_lt_of_lt (places id candidate)
      | some id => exact inside id (served id (List.mem_of_getLast? last))
    obtain ⟨id, candidate, found⟩ := nearest?_eq_ok row places none
    obtain ⟨member, suits⟩ := List.mem_filter.1 candidate
    refine .inr ⟨id, member, suits, ?_⟩
    rw [found, Fault.ok_bind]
    rfl

/-- A round moves customers from the pending ones to the tours. It is idle only if no vehicle may
serve anyone who is pending. -/
theorem round_eq_ok (table : problem.size ≤ distances.size) {tours : Tours}
    (fair : Fair problem tours) {pending : List Nat}
    (customers : ∀ id ∈ pending, id ∈ problem.customerIds) :
    ∃ extended left, round problem distances tours pending = .ok (extended, left) ∧
      Fair problem extended ∧
      (extended.flatMap Prod.snd ++ left).Perm (tours.flatMap Prod.snd ++ pending) ∧
      left.length ≤ pending.length ∧ (left.length = pending.length →
        ∀ entry ∈ tours, ∀ id ∈ pending, problem.suits entry.1 id = false) := by
  induction tours generalizing pending with
  | nil => exact ⟨[], pending, rfl, fair, .refl _, Nat.le_refl _, by simp⟩
  | cons entry rest ih =>
    obtain ⟨vehicle, ids⟩ := entry
    obtain ⟨here, others⟩ := List.forall_mem_cons.1 fair
    rcases round_cons table (fun id served => (here id served).1) customers rest with
      ⟨refused, result⟩ | ⟨id, member, suits, result⟩
    · obtain ⟨extended, left, done, fairRest, perm, shorter, idle⟩ := ih others customers
      rw [done] at result
      refine ⟨_, left, result, List.forall_mem_cons.2 ⟨here, fairRest⟩, ?_, shorter,
        fun same => List.forall_mem_cons.2 ⟨refused, idle same⟩⟩
      simp only [List.flatMap_cons, List.append_assoc]
      exact perm.append_left ids
    · obtain ⟨extended, left, done, fairRest, perm, shorter, -⟩ :=
        ih others fun other still => customers other (List.mem_of_mem_erase still)
      have fewer : (pending.erase id).length < pending.length := by
        have someone := List.length_pos_of_mem member
        rw [List.length_erase_of_mem member]
        omega
      rw [done] at result
      refine ⟨_, left, result, List.forall_mem_cons.2 ⟨?_, fairRest⟩, ?_, by omega,
        fun same => by omega⟩
      · intro other served
        rcases List.mem_append.1 served with old | new
        · exact here other old
        · rw [List.mem_singleton.1 new]
          exact ⟨customers id member, suits⟩
      · simp only [List.flatMap_cons, List.append_assoc, List.singleton_append]
        exact ((perm.cons id).trans (cons_append_erase_perm member _)).append_left ids

/-! All rounds. -/

/-- In a problem that can be served, a round that begins with someone pending serves someone. -/
theorem Shares.round {tours : Tours} {pending : List Nat} (shares : Shares problem tours pending)
    (served : problem.servable = true) (table : problem.size ≤ distances.size)
    (more : pending ≠ []) :
    ∃ extended left, round problem distances tours pending = .ok (extended, left) ∧
      Shares problem extended left ∧ left.length < pending.length := by
  have customers := shares.mem_customerIds
  obtain ⟨extended, left, done, fair, perm, shorter, idle⟩ :=
    round_eq_ok table shares.fair customers
  refine ⟨extended, left, done, ⟨(vehicles_round done).trans shares.vehicles, fair,
    perm.trans shares.all⟩, Nat.lt_of_le_of_ne shorter fun same => ?_⟩
  obtain ⟨id, member⟩ := List.exists_mem_of_ne_nil _ more
  obtain ⟨vehicle, inFleet, suits⟩ := Problem.exists_carrier served (customers id member)
  obtain ⟨ids, inTours⟩ := Tours.exists_tour shares.vehicles inFleet
  rw [idle same _ inTours id member] at suits
  cases suits

theorem rounds_eq_ok (served : problem.servable = true) (table : problem.size ≤ distances.size)
    {tours : Tours} {pending : List Nat} (shares : Shares problem tours pending) :
    ∃ final, rounds problem distances tours pending = .ok (some final) ∧
      Shares problem final [] := by
  fun_induction rounds problem distances tours pending with
  | case1 tours pending none =>
    obtain rfl := List.isEmpty_iff.1 none
    exact ⟨tours, rfl, shares⟩
  | case2 tours pending some fault failed =>
    obtain ⟨_, _, done, -⟩ := shares.round served table (by simpa using some)
    cases failed.symm.trans done
  | case3 tours pending some extended left made shorter ih =>
    obtain ⟨_, _, done, further, -⟩ := shares.round served table (by simpa using some)
    cases made.symm.trans done
    exact ih further
  | case4 tours pending some extended left made stuck =>
    obtain ⟨_, _, done, -, shorter⟩ := shares.round served table (by simpa using some)
    cases made.symm.trans done
    exact absurd shorter stuck

theorem construct_eq_ok (served : problem.servable = true)
    (table : problem.size ≤ distances.size) :
    ∃ solution, construct problem distances = .ok (some solution) ∧
      solution.plan.Serves problem := by
  obtain ⟨final, done, shares⟩ := rounds_eq_ok served table (idle_shares problem)
  have deals : final.Deals problem (final.flatMap Prod.snd) :=
    ⟨shares.vehicles, .refl _, fun entry member id visited =>
      (shares.fair entry member id visited).2⟩
  obtain ⟨solution, made, serves, -⟩ := deals.toSolution (by simpa using shares.all)
  refine ⟨solution, ?_, serves⟩
  rw [construct, if_pos served, done, Fault.ok_bind]
  dsimp only
  rw [made]
  rfl

/-- The tours and the pending customers that the construction comes to before and after each of
its rounds. -/
inductive Reached (problem : Problem K) (distances : DistanceTable K) :
    Tours → List Nat → Prop where
  | start : Reached problem distances (.idle problem) problem.customerIds
  | next {tours extended : Tours} {pending left : List Nat}
      (reached : Reached problem distances tours pending) (more : pending ≠ [])
      (done : round problem distances tours pending = .ok (extended, left)) :
      Reached problem distances extended left

theorem Reached.shares (served : problem.servable = true) (table : problem.size ≤ distances.size)
    {tours : Tours} {pending : List Nat} (reached : Reached problem distances tours pending) :
    Shares problem tours pending := by
  induction reached with
  | start => exact idle_shares problem
  | next reached more done ih =>
    obtain ⟨_, _, same, shares, -⟩ := ih.round served table more
    cases done.symm.trans same
    exact shares

/-- With a table for all locations the construction ends in a solution that serves the problem,
with at most one route for each vehicle, or has none because no vehicle may serve some customer.
Once the problem was found to be one that can be served, no round leaves as many customers pending
as there were. -/
theorem construct_serves (problem : Problem K) (distances : DistanceTable K)
    (table : problem.size ≤ distances.size)
    (someone : 0 < problem.vehicleCount ∨ 0 < problem.customerCount) :
    (construct problem distances = .ok none ↔
      ∃ id ∈ problem.customerIds, problem.carriers id = .ok []) ∧
    ((¬ ∃ id ∈ problem.customerIds, problem.carriers id = .ok []) →
      ∃ solution, construct problem distances = .ok (some solution) ∧
        problem.violations solution = [] ∧
        ∀ vehicle, (solution.plan.routes vehicle).length ≤ 1) ∧
    (problem.servable = true → ∀ tours pending, Reached problem distances tours pending →
      pending ≠ [] → ∃ extended left,
        round problem distances tours pending = .ok (extended, left) ∧
          left.length < pending.length) := by
  rw [← Problem.servable_eq_false_iff someone, Bool.not_eq_false]
  refine ⟨⟨fun none => ?_, fun unserved => ?_⟩, fun served => ?_,
    fun served tours pending reached more => ?_⟩
  · by_contra served
    obtain ⟨solution, made, -⟩ := construct_eq_ok (by simpa using served) table
    rw [none] at made
    cases made
  · rw [construct, unserved]
    rfl
  · obtain ⟨solution, made, serves⟩ := construct_eq_ok served table
    exact ⟨solution, made, serves.violations_eq_nil, length_routes_construct made⟩
  · have shares := reached.shares served table
    obtain ⟨extended, left, done, -, shorter⟩ := shares.round served table more
    exact ⟨extended, left, done, shorter⟩

theorem construct_serves_truck_drone :
    let problem : Problem Binary64 :=
      ⟨[.depot 0 0, ⟨1, 0, 1, false⟩, ⟨2, 1, 0, true⟩, ⟨3, 1, 1, true⟩], 1, 1, 0, fun _ => 0⟩
    let distances := DistanceTable.ofCustomers problem.customers
    problem.size ≤ distances.size ∧ 0 < problem.vehicleCount ∧
      ∃ solution, construct problem distances = .ok (some solution) ∧
        problem.violations solution = [] := by
  intro problem distances
  have table : problem.size ≤ distances.size := Nat.le_refl _
  have someone : 0 < problem.vehicleCount := by decide
  have carried : ¬ ∃ id ∈ problem.customerIds, problem.carriers id = .ok [] := by decide
  obtain ⟨solution, made, clean, -⟩ :=
    (construct_serves problem distances table (.inl someone)).2.1 carried
  exact ⟨table, someone, solution, made, clean⟩

end TruckDrone.NearestNeighbor
