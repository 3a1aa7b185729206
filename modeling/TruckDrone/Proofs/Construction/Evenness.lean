import TruckDrone.Proofs.Construction.Turns

/-! How many customers the nearest-neighbor construction deals to each vehicle, whatever the
distances are. Whom a vehicle may serve, every vehicle before it in unified order may serve too. So
none of those passes as long as the vehicle takes someone, and it never gets ahead of them. -/

set_option autoImplicit false

namespace TruckDrone

variable {K : Type} {problem : Problem K}

theorem pairwise_fleet_isDrone (trucks drones : Nat) :
    (fleet trucks drones).Pairwise fun first second =>
      first.isDrone = true → second.isDrone = true := by
  rw [fleet_eq_append, List.pairwise_append, List.pairwise_map, List.pairwise_map]
  refine ⟨List.pairwise_of_forall ?_, List.pairwise_of_forall ?_, ?_⟩ <;>
    simp [Vehicle.isDrone, Vehicle.kind]

theorem Problem.suits_of_spares {first second : Vehicle} {id : Nat}
    (sparing : first.isDrone = true → second.isDrone = true)
    (suits : problem.suits second id = true) : problem.suits first id = true := by
  unfold Problem.suits at suits ⊢
  cases drone : first.isDrone with
  | false => rfl
  | true => simpa [sparing drone] using suits

theorem Problem.suits_of_kind {first second : Vehicle} {id : Nat} (same : first.kind = second.kind)
    (suits : problem.suits second id = true) : problem.suits first id = true :=
  suits_of_spares (fun drone => by rwa [Vehicle.isDrone, ← same]) suits

def Plan.servedBy (plan : Plan) (vehicle : Vehicle) : List Nat :=
  (plan.routes vehicle).flatMap Route.body

namespace NearestNeighbor

/-- The first vehicle serves no fewer customers than the second, and at most one more if both are of
one kind. -/
def Even (first second : Vehicle × List Nat) : Prop :=
  second.2.length ≤ first.2.length ∧
    (first.1.kind = second.1.kind → first.2.length ≤ second.2.length + 1)

variable [Ranked K] {distances : DistanceTable K} {past : Nat} {done waiting : Tours}
  {pending : List Nat} {picks : List Pick}

theorem Stands.even (stands : Stands problem distances past done waiting pending picks) :
    (done ++ waiting).Pairwise Even := by
  induction stands with
  | start =>
    rw [List.nil_append, Tours.idle, List.pairwise_map]
    exact List.pairwise_of_forall (by simp [Even])
  | pass _ _ ih => simpa using ih
  | @take past done waiting pending _ vehicle ids id stands found ih =>
    obtain ⟨member, suits, -⟩ := stands.chosen found
    obtain ⟨before, waits⟩ := stands.keepsUp
    obtain ⟨here, after⟩ := List.forall_mem_cons.1 waits
    have turns : ids.length = past := here.length_eq member suits
    have grown : (ids ++ [id]).length = past + 1 := by simp [turns]
    have sparing := List.pairwise_append.1
      (stands.shares.pairwise (pairwise_fleet_isDrone problem.trucks problem.drones))
    obtain ⟨evenDone, evenRest, across⟩ := List.pairwise_append.1 ih
    rw [List.append_assoc, List.singleton_append]
    refine List.pairwise_append.2 ⟨evenDone, List.pairwise_cons.2 ⟨?_, evenRest.of_cons⟩, ?_⟩
    · -- A vehicle of the same kind behind the one that took someone has not passed either.
      intro later inWaiting
      have keepsUp := after later inWaiting
      unfold Even
      dsimp only
      rw [grown]
      constructor
      · have turnsLater := keepsUp.length_le
        omega
      · intro same
        have turnsLater := keepsUp.length_eq member (Problem.suits_of_kind same.symm suits)
        omega
    · intro earlier inDone later inRest
      rcases List.mem_cons.1 inRest with rfl | inWaiting
      · have may := Problem.suits_of_spares (sparing.2.2 _ inDone _ (List.mem_cons_self ..)) suits
        have turnsEarlier := (before earlier inDone).length_eq member may
        unfold Even
        dsimp only
        omega
      · exact across earlier inDone later (List.mem_cons_of_mem _ inWaiting)
  | again _ ih => simpa using ih

/-- In the end a vehicle serves no fewer customers than one behind it in unified order, and at most
one more if both are of one kind. -/
theorem Stands.servedBy_even {final : Tours} {plan : Plan}
    (stands : Stands problem distances past [] final pending picks)
    (tour : ∀ entry ∈ final, plan.routes entry.1 = entry.1.tour entry.2) (first second : Vehicle)
    (inFleet : first ∈ problem.fleet) (alsoInFleet : second ∈ problem.fleet)
    (before : first.unified problem.trucks < second.unified problem.trucks) :
    (plan.servedBy second).length ≤ (plan.servedBy first).length ∧
      (first.kind = second.kind →
        (plan.servedBy first).length ≤ (plan.servedBy second).length + 1) := by
  have vehicles := stands.shares.vehicles
  have servedBy : ∀ entry ∈ final, plan.servedBy entry.1 = entry.2 := by
    intro entry member
    rw [Plan.servedBy, tour entry member, Vehicle.flatMap_body_tour (stands.shares.served member)]
  have numbered : final.Pairwise fun one other =>
      one.1.unified problem.trucks < other.1.unified problem.trucks :=
    stands.shares.pairwise (pairwise_fleet problem.trucks problem.drones)
  obtain ⟨ids, inTours⟩ := Tours.exists_tour vehicles inFleet
  obtain ⟨others, alsoInTours⟩ := Tours.exists_tour vehicles alsoInFleet
  have even : Even (first, ids) (second, others) :=
    rel_of_pairwise_of_key numbered stands.even inTours alsoInTours before
  rwa [servedBy _ inTours, servedBy _ alsoInTours]

/-- A problem that can be served, with distances for all of its locations, gets a feasible plan in
which no truck serves more customers than one of a lower number, nor fewer by more than one, the
drones likewise, and no drone serves more customers than a truck. -/
theorem construct_even (problem : Problem K) (distances : DistanceTable K)
    (served : problem.servable = true) (table : problem.size ≤ distances.size) :
    ∃ solution, construct problem distances = .ok (some solution) ∧
      problem.violations solution = [] ∧
      let count (vehicle : Vehicle) : Nat := (solution.plan.servedBy vehicle).length
      (∀ i j, i < j → j < problem.trucks →
        count (.truck j) ≤ count (.truck i) ∧ count (.truck i) ≤ count (.truck j) + 1) ∧
      (∀ i j, i < j → j < problem.drones →
        count (.drone j) ≤ count (.drone i) ∧ count (.drone i) ≤ count (.drone j) + 1) ∧
      ∀ i j, i < problem.trucks → j < problem.drones → count (.drone j) ≤ count (.truck i) := by
  obtain ⟨solution, past, final, picks, made, feasible, stands, fits, tour⟩ :=
    exists_stands_of_construct served table
  refine ⟨solution, made, feasible, ?_⟩
  have even := stands.servedBy_even tour
  refine ⟨fun i j before inside => ?_, fun i j before inside => ?_, fun i j inside also => ?_⟩
  · have both := even (.truck i) (.truck j) (mem_fleet.2 (before.trans inside)) (mem_fleet.2 inside)
      before
    exact ⟨both.1, both.2 rfl⟩
  · have both := even (.drone i) (.drone j) (mem_fleet.2 (before.trans inside)) (mem_fleet.2 inside)
      (Nat.add_lt_add_left before _)
    exact ⟨both.1, both.2 rfl⟩
  · exact (even (.truck i) (.drone j) (mem_fleet.2 inside) (mem_fleet.2 also)
      (Nat.lt_add_right j inside)).1

/-- The first drone takes the only customer that a drone may serve; the trucks go on. -/
theorem construct_even_idle_drone :
    let problem : Problem Binary64 :=
      ⟨[.depot 0 0, ⟨1, 0, 1, false⟩, ⟨2, 1, 0, true⟩, ⟨3, 1, 1, false⟩, ⟨4, 0, 0, false⟩], 2, 2, 0,
        fun _ => 0⟩
    let distances : DistanceTable Binary64 := .zero 5
    problem.servable = true ∧ problem.size ≤ distances.size ∧
      ∃ solution, construct problem distances = .ok (some solution) ∧
        problem.violations solution = [] ∧
        let count (vehicle : Vehicle) : Nat := (solution.plan.servedBy vehicle).length
        count (.truck 1) ≤ count (.truck 0) ∧ count (.truck 0) ≤ count (.truck 1) + 1 ∧
          count (.drone 1) ≤ count (.drone 0) ∧ count (.drone 0) ≤ count (.drone 1) + 1 ∧
          count (.drone 0) ≤ count (.truck 1) := by
  intro problem distances
  have served : problem.servable = true := rfl
  have table : problem.size ≤ distances.size := Nat.le_refl _
  obtain ⟨solution, made, feasible, trucks, drones, across⟩ :=
    construct_even problem distances served table
  obtain ⟨fewerTrucks, nearlyTrucks⟩ := trucks 0 1 (by decide) (by decide)
  obtain ⟨fewerDrones, nearlyDrones⟩ := drones 0 1 (by decide) (by decide)
  exact ⟨served, table, solution, made, feasible, fewerTrucks, nearlyTrucks, fewerDrones,
    nearlyDrones, across 1 0 (by decide) (by decide)⟩

end NearestNeighbor

end TruckDrone
