import TruckDrone.Proofs.Construction.NearestNeighbor

/-! The nearest-neighbor construction turn by turn. On its turn a vehicle takes the nearest pending
customer that it may serve, or passes. Customers only leave the pending ones, so a vehicle that has
passed passes ever after, and a customer was taken in the round that its position on the tour
tells. -/

set_option autoImplicit false

namespace TruckDrone.NearestNeighbor

variable {K : Type} {problem : Problem K} {pending : List Nat}

/-! The part of a vehicle. -/

structure Pick where
  vehicle : Vehicle
  position : Nat
  place : Nat
  id : Nat

def lastStop (ids : List Nat) : Nat := ids.getLast?.getD depotId

theorem Shares.take {front back : Tours} {vehicle : Vehicle} {ids : List Nat}
    (shares : Shares problem (front ++ (vehicle, ids) :: back) pending) {id : Nat}
    (member : id ∈ pending) (suits : problem.suits vehicle id = true) :
    Shares problem (front ++ (vehicle, ids ++ [id]) :: back) (pending.erase id) := by
  have customer := shares.mem_customerIds id member
  constructor
  · simpa using shares.vehicles
  · have fair := shares.fair
    simp only [Fair, List.forall_mem_append, List.forall_mem_cons] at fair ⊢
    obtain ⟨before, here, after⟩ := fair
    exact ⟨before, ⟨here, ⟨customer, suits⟩, by simp⟩, after⟩
  · refine List.Perm.trans ?_ shares.all
    simp only [List.flatMap_append, List.flatMap_cons, List.append_assoc]
    exact ((cons_append_erase_perm member _).append_left ids).append_left _

/-- What the order of the fleet says of vehicles holds of their tours. -/
theorem Shares.pairwise {tours : Tours} (shares : Shares problem tours pending)
    {related : Vehicle → Vehicle → Prop} (inFleet : problem.fleet.Pairwise related) :
    tours.Pairwise fun first second => related first.1 second.1 := by
  rwa [← shares.vehicles, List.pairwise_map] at inFleet

theorem Shares.served {tours : Tours} (shares : Shares problem tours pending)
    {entry : Vehicle × List Nat} (member : entry ∈ tours) : ∀ id ∈ entry.2, id ≠ depotId := by
  intro id visited
  obtain ⟨customer, -⟩ := shares.fair entry member id visited
  exact Nat.one_le_iff_ne_zero.1 (Problem.mem_customerIds.1 customer).1

/-- A vehicle took a customer at each of its turns, or there is no one left that it may serve. -/
def KeepsUp (problem : Problem K) (pending : List Nat) (turns : Nat)
    (entry : Vehicle × List Nat) : Prop :=
  entry.2.length = turns ∨
    entry.2.length < turns ∧ ∀ id ∈ pending, problem.suits entry.1 id = false

theorem KeepsUp.erase {turns : Nat} {entry : Vehicle × List Nat}
    (keepsUp : KeepsUp problem pending turns entry) (id : Nat) :
    KeepsUp problem (pending.erase id) turns entry :=
  keepsUp.imp_right fun ⟨fewer, refused⟩ =>
    ⟨fewer, fun other still => refused other (List.mem_of_mem_erase still)⟩

theorem KeepsUp.length_le {turns : Nat} {entry : Vehicle × List Nat}
    (keepsUp : KeepsUp problem pending turns entry) : entry.2.length ≤ turns :=
  keepsUp.elim Nat.le_of_eq fun behind => behind.1.le

theorem KeepsUp.length_eq {turns : Nat} {entry : Vehicle × List Nat}
    (keepsUp : KeepsUp problem pending turns entry) {id : Nat} (member : id ∈ pending)
    (suits : problem.suits entry.1 id = true) : entry.2.length = turns := by
  rcases keepsUp with same | ⟨-, refused⟩
  · exact same
  · rw [refused id member] at suits
    cases suits

theorem KeepsUp.pass {turns : Nat} {entry : Vehicle × List Nat}
    (keepsUp : KeepsUp problem pending turns entry)
    (refused : ∀ id ∈ pending, problem.suits entry.1 id = false) :
    KeepsUp problem pending (turns + 1) entry := by
  rcases keepsUp with same | ⟨fewer, -⟩
  · exact .inr ⟨Nat.lt_succ_of_le same.le, refused⟩
  · exact .inr ⟨Nat.lt_succ_of_lt fewer, refused⟩

theorem KeepsUp.take {turns : Nat} {vehicle : Vehicle} {ids : List Nat}
    (keepsUp : KeepsUp problem pending turns (vehicle, ids)) {id : Nat} (member : id ∈ pending)
    (suits : problem.suits vehicle id = true) :
    KeepsUp problem (pending.erase id) (turns + 1) (vehicle, ids ++ [id]) := by
  have same := keepsUp.length_eq member suits
  exact .inl (by simpa using same)

/-! The nearest customer. -/

variable [Ranked K]

/-- From the place, the one customer is nearer than the other, or it is as near and comes first. -/
def Precedes (distances : DistanceTable K) (place id other : Nat) : Prop :=
  ∃ near far, distances.get place id = .ok near ∧ distances.get place other = .ok far ∧
    Ranked.rank near ≤ Ranked.rank far ∧ (Ranked.rank near = Ranked.rank far → id < other)

section

variable {distances : DistanceTable K} {place : Nat}

theorem Precedes.trans {first second third : Nat} (here : Precedes distances place first second)
    (there : Precedes distances place second third) : Precedes distances place first third := by
  obtain ⟨near, middle, knownNear, knownMiddle, nearer, tie⟩ := here
  obtain ⟨same, far, knownSame, knownFar, farther, later⟩ := there
  obtain rfl := Except.ok.inj (knownMiddle.symm.trans knownSame)
  refine ⟨near, far, knownNear, knownFar, Int.le_trans nearer farther, fun equal => ?_⟩
  have first := tie (by omega)
  have second := later (by omega)
  omega

theorem exists_of_nearest?_cons_cons {best id chosen : Nat} {rest : List Nat} (sorted : best < id)
    (found : nearest? distances place (best :: id :: rest) = .ok (some chosen)) :
    ∃ kept left, (kept = best ∧ left = id ∨ kept = id ∧ left = best) ∧
      Precedes distances place kept left ∧
      nearest? distances place (kept :: rest) = .ok (some chosen) := by
  rw [nearest?, List.foldlM_cons] at found
  obtain ⟨_, folded, same⟩ := Fault.map_eq_ok.1 found
  obtain ⟨_, compared, folded⟩ := Fault.bind_eq_ok.1 folded
  obtain ⟨incumbent, knownBest, compared⟩ := Fault.bind_eq_ok.1 compared
  obtain ⟨candidate, knownId, compared⟩ := Fault.bind_eq_ok.1 compared
  have goesOn := Fault.map_eq_ok.2 ⟨_, folded, same⟩
  by_cases lower : Ranked.rank candidate < Ranked.rank incumbent
  · obtain rfl : id = _ := by simpa [lower] using compared
    exact ⟨id, best, .inr ⟨rfl, rfl⟩,
      ⟨candidate, incumbent, knownId, knownBest, by omega, by omega⟩, goesOn⟩
  · obtain rfl : best = _ := by simpa [lower] using compared
    exact ⟨best, id, .inl ⟨rfl, rfl⟩,
      ⟨incumbent, candidate, knownBest, knownId, by omega, fun _ => sorted⟩, goesOn⟩

/-- Among customers in order, the one that is chosen precedes all others. -/
theorem precedes_of_nearest? {ids : List Nat} (sorted : ids.Pairwise (· < ·)) {chosen : Nat}
    (found : nearest? distances place ids = .ok (some chosen)) :
    chosen ∈ ids ∧ ∀ other ∈ ids, other ≠ chosen → Precedes distances place chosen other := by
  cases ids with
  | nil => cases found
  | cons best rest =>
    induction rest generalizing best with
    | nil =>
      cases found
      simp
    | cons id rest ih =>
      have inOrder : best < id := List.rel_of_pairwise_cons sorted (List.mem_cons_self ..)
      obtain ⟨kept, left, split, precedes, goesOn⟩ := exists_of_nearest?_cons_cons inOrder found
      have sortedKept : (kept :: rest).Pairwise (· < ·) := by
        rcases split with ⟨rfl, rfl⟩ | ⟨rfl, rfl⟩ <;> simp_all
      obtain ⟨member, others⟩ := ih kept sortedKept goesOn
      have beforeLeft : Precedes distances place chosen left := by
        by_cases same : kept = chosen
        · exact same ▸ precedes
        · exact (others kept (List.mem_cons_self ..) same).trans precedes
      have among : ∀ other, other ∈ best :: id :: rest ↔ other = left ∨ other ∈ kept :: rest := by
        rcases split with ⟨rfl, rfl⟩ | ⟨rfl, rfl⟩ <;> simp [or_left_comm]
      constructor
      · exact (among chosen).2 (.inr member)
      · intro other candidate apart
        rcases (among other).1 candidate with rfl | inKept
        · exact beforeLeft
        · exact others other inKept apart

theorem eq_nil_of_nearest? {ids : List Nat} (found : nearest? distances place ids = .ok none) :
    ids = [] := by
  cases ids with
  | nil => rfl
  | cons first rest =>
    obtain ⟨_, -, same⟩ := Fault.map_eq_ok.1 found
    cases same

end

/-! One turn after the other. -/

/-- Where the construction stands between two turns: the number of rounds that are over, the tours
of the vehicles that had their turn in the next one and of those that did not, the customers still
pending, and the picks so far in the order in which they were made. -/
inductive Stands (problem : Problem K) (distances : DistanceTable K) :
    Nat → Tours → Tours → List Nat → List Pick → Prop where
  | start : Stands problem distances 0 [] (.idle problem) problem.customerIds []
  | pass {past : Nat} {done waiting : Tours} {pending : List Nat} {picks : List Pick}
      {vehicle : Vehicle} {ids : List Nat}
      (stands : Stands problem distances past done ((vehicle, ids) :: waiting) pending picks)
      (refused : ∀ id ∈ pending, problem.suits vehicle id = false) :
      Stands problem distances past (done ++ [(vehicle, ids)]) waiting pending picks
  | take {past : Nat} {done waiting : Tours} {pending : List Nat} {picks : List Pick}
      {vehicle : Vehicle} {ids : List Nat} {id : Nat}
      (stands : Stands problem distances past done ((vehicle, ids) :: waiting) pending picks)
      (found : nearest? distances (lastStop ids) (pending.filter (problem.suits vehicle)) =
        .ok (some id)) :
      Stands problem distances past (done ++ [(vehicle, ids ++ [id])]) waiting
        (pending.erase id) (picks ++ [⟨vehicle, ids.length, lastStop ids, id⟩])
  | again {past : Nat} {done : Tours} {pending : List Nat} {picks : List Pick}
      (stands : Stands problem distances past done [] pending picks) :
      Stands problem distances (past + 1) [] done pending picks

variable {distances : DistanceTable K} {past : Nat} {done waiting : Tours} {picks : List Pick}

theorem Stands.sorted (stands : Stands problem distances past done waiting pending picks) :
    pending.Pairwise (· < ·) := by
  induction stands with
  | start => exact pairwise_span ..
  | pass _ _ ih => exact ih
  | take _ _ ih => exact ih.sublist List.erase_sublist
  | again _ ih => exact ih

/-- Whom a vehicle takes is pending, it may serve them, and they precede all others that it may
serve. -/
theorem Stands.chosen {vehicle : Vehicle} {ids : List Nat} {id : Nat}
    (stands : Stands problem distances past done ((vehicle, ids) :: waiting) pending picks)
    (found : nearest? distances (lastStop ids) (pending.filter (problem.suits vehicle)) =
      .ok (some id)) :
    id ∈ pending ∧ problem.suits vehicle id = true ∧ ∀ other ∈ pending, other ≠ id →
      problem.suits vehicle other = true → Precedes distances (lastStop ids) id other := by
  obtain ⟨candidate, others⟩ := precedes_of_nearest? (stands.sorted.filter _) found
  obtain ⟨member, suits⟩ := List.mem_filter.1 candidate
  exact ⟨member, suits, fun other still apart may =>
    others other (List.mem_filter.2 ⟨still, may⟩) apart⟩

theorem Stands.shares (stands : Stands problem distances past done waiting pending picks) :
    Shares problem (done ++ waiting) pending := by
  induction stands with
  | start => exact idle_shares problem
  | pass _ _ ih => simpa using ih
  | take stands found ih =>
    obtain ⟨member, suits, -⟩ := stands.chosen found
    simpa using ih.take member suits
  | again _ ih => simpa using ih

theorem Stands.keepsUp (stands : Stands problem distances past done waiting pending picks) :
    (∀ entry ∈ done, KeepsUp problem pending (past + 1) entry) ∧
      ∀ entry ∈ waiting, KeepsUp problem pending past entry := by
  induction stands with
  | start => simp [Tours.idle, KeepsUp]
  | pass _ refused ih =>
    obtain ⟨before, waits⟩ := ih
    obtain ⟨here, after⟩ := List.forall_mem_cons.1 waits
    have passed := List.forall_mem_singleton.2 (here.pass refused)
    exact ⟨List.forall_mem_append.2 ⟨before, passed⟩, after⟩
  | @take _ _ _ _ _ _ _ id stands found ih =>
    obtain ⟨member, suits, -⟩ := stands.chosen found
    obtain ⟨before, waits⟩ := ih
    obtain ⟨here, after⟩ := List.forall_mem_cons.1 waits
    exact ⟨List.forall_mem_append.2 ⟨fun entry inDone => (before entry inDone).erase id,
      List.forall_mem_singleton.2 (here.take member suits)⟩,
      fun entry inWaiting => (after entry inWaiting).erase id⟩
  | again _ ih => exact ⟨by simp, ih.1⟩

/-! The rounds of the construction run through such turns. -/

/-- In a round that succeeds the first vehicle passes or takes someone, and the round goes on. -/
theorem round_cons_cases {vehicle : Vehicle} {ids : List Nat} {rest extended : Tours}
    {left : List Nat} (customers : ∀ id ∈ pending, id ∈ problem.customerIds)
    (done : round problem distances ((vehicle, ids) :: rest) pending = .ok (extended, left)) :
    ∃ others, (∀ id ∈ pending, problem.suits vehicle id = false) ∧
        round problem distances rest pending = .ok (others, left) ∧
        extended = (vehicle, ids) :: others ∨
      ∃ id, nearest? distances (lastStop ids) (pending.filter (problem.suits vehicle)) =
          .ok (some id) ∧
        round problem distances rest (pending.erase id) = .ok (others, left) ∧
        extended = (vehicle, ids ++ [id]) :: others := by
  rw [round, filterM_admits_eq_ok customers, Fault.ok_bind] at done
  obtain ⟨nearest, found, done⟩ := Fault.bind_eq_ok.1 done
  cases nearest with
  | none =>
    obtain ⟨⟨others, _⟩, further, done⟩ := Fault.bind_eq_ok.1 done
    cases done
    have refused := eq_nil_of_nearest? found
    exact ⟨others, .inl ⟨by simpa using refused, further, rfl⟩⟩
  | some id =>
    obtain ⟨⟨others, _⟩, further, done⟩ := Fault.bind_eq_ok.1 done
    cases done
    exact ⟨others, .inr ⟨id, found, further, rfl⟩⟩

theorem Stands.round {extended : Tours} {left : List Nat}
    (stands : Stands problem distances past done waiting pending picks)
    (made : round problem distances waiting pending = .ok (extended, left)) :
    ∃ more, Stands problem distances past (done ++ extended) [] left more := by
  induction waiting generalizing done pending picks extended with
  | nil =>
    cases made
    exact ⟨picks, by simpa using stands⟩
  | cons entry rest ih =>
    obtain ⟨others, ⟨refused, further, rfl⟩ | ⟨id, found, further, rfl⟩⟩ :=
      round_cons_cases stands.shares.mem_customerIds made
    · simpa using ih (stands.pass refused) further
    · simpa using ih (stands.take found) further

theorem Stands.rounds {tours final : Tours}
    (stands : Stands problem distances past [] tours pending picks)
    (made : NearestNeighbor.rounds problem distances tours pending = .ok (some final)) :
    ∃ all more, Stands problem distances all [] final [] more := by
  fun_induction NearestNeighbor.rounds problem distances tours pending
    generalizing past picks with
  | case1 tours pending none =>
    cases made
    obtain rfl := List.isEmpty_iff.1 none
    exact ⟨_, _, stands⟩
  | case2 tours pending some fault failed => cases made
  | case3 tours pending some extended left done shorter ih =>
    obtain ⟨more, after⟩ := stands.round done
    exact ih after.again made
  | case4 tours pending some extended left done stuck => cases made

/-- Where the problem can be served, the construction ends after a number of rounds, with no one
pending, in the plan that its tours make, and everyone is served. -/
theorem exists_stands_of_construct (served : problem.servable = true)
    (table : problem.size ≤ distances.size) :
    ∃ solution past final picks, construct problem distances = .ok (some solution) ∧
      problem.violations solution = [] ∧ Stands problem distances past [] final [] picks ∧
      solution.plan.Fits problem ∧
      ∀ entry ∈ final, solution.plan.routes entry.1 = entry.1.tour entry.2 := by
  obtain ⟨final, made, shares⟩ := rounds_eq_ok served table (idle_shares problem)
  obtain ⟨past, picks, stands⟩ := Stands.start.rounds made
  obtain ⟨plan, placed, fits, tour⟩ := Tours.toPlan_eq_ok shares.vehicles
  have built : construct problem distances = .ok (some (problem.assess plan)) := by
    rw [construct, if_pos served, made, Fault.ok_bind]
    dsimp only
    rw [Tours.toSolution, placed]
    rfl
  obtain ⟨solution, same, serves⟩ := construct_eq_ok served table
  obtain rfl := Option.some.inj (Except.ok.inj (built.symm.trans same))
  exact ⟨_, past, final, picks, built, serves.violations_eq_nil, stands, fits, tour⟩

end TruckDrone.NearestNeighbor
