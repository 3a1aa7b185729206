import Mathlib.Data.Prod.Lex
import TruckDrone.Proofs.Construction.Turns

/-! The nearest-neighbor construction is greedy, and its result shows it. Turns are ordered by the
position of the customer, then by the number of the vehicle; on each of them the vehicle went to the
nearest of all customers that it may serve and that have a later turn. -/

set_option autoImplicit false

namespace TruckDrone

def Vehicle.turn (vehicle : Vehicle) (trucks position : Nat) : Nat ×ₗ Nat :=
  toLex (position, vehicle.unified trucks)

namespace NearestNeighbor

def Pick.turn (pick : Pick) (trucks : Nat) : Nat ×ₗ Nat := pick.vehicle.turn trucks pick.position

/-- The pick was made in a round that is over, or in the next one by a vehicle that had its turn. -/
def Pick.Begun (past : Nat) (done : Tours) (pick : Pick) : Prop :=
  pick.position < past ∨ pick.position = past ∧ pick.vehicle ∈ done.map Prod.fst

theorem Pick.Begun.append {past : Nat} {done : Tours} {pick : Pick} (begun : pick.Begun past done)
    (more : Tours) : pick.Begun past (done ++ more) :=
  begun.imp_right fun ⟨same, had⟩ => ⟨same, by simp [had]⟩

theorem Pick.Begun.again {past : Nat} {done : Tours} {pick : Pick} (begun : pick.Begun past done) :
    pick.Begun (past + 1) [] :=
  .inl (Nat.lt_succ_of_le (begun.elim Nat.le_of_lt fun present => present.1.le))

def Pick.On (pick : Pick) (plan : Plan) : Prop :=
  ∃ route ∈ plan.routes pick.vehicle, route.stops[pick.position]? = some pick.place ∧
    route.body[pick.position]? = some pick.id

def Recorded (picks : List Pick) (entry : Vehicle × List Nat) : Prop :=
  ∀ position id, entry.2[position]? = some id →
    ⟨entry.1, position, lastStop (entry.2.take position), id⟩ ∈ picks

theorem Recorded.append {picks : List Pick} {entry : Vehicle × List Nat}
    (recorded : Recorded picks entry) (more : List Pick) : Recorded (picks ++ more) entry :=
  fun position id visited => List.mem_append_left more (recorded position id visited)

theorem Recorded.take {picks : List Pick} {vehicle : Vehicle} {ids : List Nat}
    (recorded : Recorded picks (vehicle, ids)) (id : Nat) :
    Recorded (picks ++ [⟨vehicle, ids.length, lastStop ids, id⟩]) (vehicle, ids ++ [id]) := by
  intro position other visited
  rcases Nat.lt_trichotomy position ids.length with earlier | rfl | later
  · have old : ids[position]? = some other := by
      rwa [List.getElem?_append_left earlier] at visited
    rw [List.take_append_of_le_length earlier.le]
    exact recorded.append _ position other old
  · have new : id = other := by simpa using visited
    simp [new]
  · have outside : (ids ++ [id])[position]? = none := by
      simpa using Nat.succ_le_of_lt later
    rw [outside] at visited
    cases visited

variable {K : Type} [Ranked K] {problem : Problem K} {distances : DistanceTable K} {past : Nat}
  {done waiting : Tours} {pending : List Nat} {picks : List Pick}

theorem Stands.recorded (stands : Stands problem distances past done waiting pending picks) :
    ∀ entry ∈ done ++ waiting, Recorded picks entry := by
  induction stands with
  | start => simp [Tours.idle, Recorded]
  | pass _ _ ih => simpa using ih
  | @take _ _ _ _ _ _ _ id _ _ ih =>
    obtain ⟨before, waits⟩ := List.forall_mem_append.1 ih
    obtain ⟨here, after⟩ := List.forall_mem_cons.1 waits
    rw [List.append_assoc, List.singleton_append]
    exact List.forall_mem_append.2 ⟨fun entry inDone => (before entry inDone).append _,
      List.forall_mem_cons.2 ⟨here.take id, fun entry inRest => (after entry inRest).append _⟩⟩
  | again _ ih => simpa using ih

/-- The picks stand in the order of their turns, none of them after the present one. Whoever was
picked precedes, for its vehicle, those picked later and those still pending. -/
structure Greedy (problem : Problem K) (distances : DistanceTable K) (past : Nat) (done : Tours)
    (pending : List Nat) (picks : List Pick) : Prop where
  begun : ∀ pick ∈ picks, pick.Begun past done
  ordered : picks.Pairwise fun first second =>
    first.turn problem.trucks < second.turn problem.trucks
  first : ∀ pick ∈ picks, ∀ id ∈ pending, problem.suits pick.vehicle id = true →
    Precedes distances pick.place pick.id id
  nearest : picks.Pairwise fun first second => problem.suits first.vehicle second.id = true →
    Precedes distances first.place first.id second.id

/-- The turn of the first vehicle that waits is behind those of all picks so far. -/
theorem Stands.turn_lt {vehicle : Vehicle} {ids : List Nat} {pick : Pick}
    (stands : Stands problem distances past done ((vehicle, ids) :: waiting) pending picks)
    (begun : pick.Begun past done) :
    pick.turn problem.trucks < vehicle.turn problem.trucks past := by
  have numbered := stands.shares.pairwise (pairwise_fleet problem.trucks problem.drones)
  rw [Pick.turn, Vehicle.turn, Vehicle.turn, Prod.Lex.toLex_lt_toLex]
  refine begun.imp_right fun ⟨same, had⟩ => ⟨same, ?_⟩
  obtain ⟨entry, inDone, owner⟩ := List.mem_map.1 had
  rw [← owner]
  exact (List.pairwise_append.1 numbered).2.2 entry inDone _ (List.mem_cons_self ..)

theorem Stands.greedy (stands : Stands problem distances past done waiting pending picks) :
    Greedy problem distances past done pending picks := by
  induction stands with
  | start => exact ⟨by simp, .nil, by simp, .nil⟩
  | pass _ _ ih =>
    exact ⟨fun pick member => (ih.begun pick member).append _, ih.ordered, ih.first, ih.nearest⟩
  | @take past done waiting pending picks vehicle ids id stands found ih =>
    obtain ⟨member, suits, precedes⟩ := stands.chosen found
    have turn : ids.length = past :=
      (stands.keepsUp.2 _ (List.mem_cons_self ..)).length_eq member suits
    have distinct : pending.Nodup := stands.sorted.imp fun earlier => earlier.ne
    constructor
    case begun =>
      refine List.forall_mem_append.2 ⟨fun pick earlier => (ih.begun pick earlier).append _,
        List.forall_mem_singleton.2 (.inr ⟨turn, ?_⟩)⟩
      simp
    case ordered =>
      refine List.pairwise_append.2 ⟨ih.ordered, List.pairwise_singleton .., ?_⟩
      intro pick earlier _ last
      rw [List.mem_singleton.1 last]
      show pick.turn problem.trucks < vehicle.turn problem.trucks ids.length
      rw [turn]
      exact stands.turn_lt (ih.begun pick earlier)
    case first =>
      simp only [List.forall_mem_append, List.forall_mem_singleton]
      refine ⟨fun pick earlier other still => ih.first pick earlier other
        (List.mem_of_mem_erase still), fun other still => ?_⟩
      obtain ⟨apart, left⟩ := distinct.mem_erase_iff.1 still
      exact precedes other left apart
    case nearest =>
      refine List.pairwise_append.2 ⟨ih.nearest, List.pairwise_singleton .., ?_⟩
      intro pick earlier _ last
      rw [List.mem_singleton.1 last]
      exact ih.first pick earlier id member
  | again _ ih =>
    exact ⟨fun pick member => (ih.begun pick member).again, ih.ordered, ih.first, ih.nearest⟩

theorem getElem?_stops_eq_lastStop {route : Route} {position : Nat}
    (inside : position ≤ route.size) :
    route.stops[position]? = some (lastStop (route.body.take position)) := by
  cases position with
  | zero => simp [Route.stops, lastStop]
  | succ previous =>
    have present := List.getElem?_eq_getElem (l := route.body) inside
    rw [Route.getElem?_stops inside, lastStop, List.getLast?_take]
    simp [present]

/-- A pick that can be read off the plan is one that was made. -/
theorem Stands.mem_picks_of_on {final : Tours} {plan : Plan}
    (stands : Stands problem distances past [] final pending picks) (fits : plan.Fits problem)
    (tour : ∀ entry ∈ final, plan.routes entry.1 = entry.1.tour entry.2) {pick : Pick}
    (read : pick.On plan) : pick ∈ picks := by
  obtain ⟨vehicle, position, place, id⟩ := pick
  obtain ⟨route, member, behind, visited⟩ := read
  have shares := stands.shares
  obtain ⟨ids, inTours⟩ := Tours.exists_tour shares.vehicles (fits.mem_fleet member)
  rw [tour _ inTours, Vehicle.mem_tour] at member
  obtain ⟨-, rfl⟩ := member
  have inside : position < (Route.ofIds vehicle.kind ids).size :=
    (List.getElem?_eq_some_iff.1 visited).1
  rw [getElem?_stops_eq_lastStop inside.le] at behind
  rw [Route.body_ofIds_of_served (shares.served inTours)] at behind visited
  obtain rfl : lastStop (ids.take position) = place := Option.some.inj behind
  exact stands.recorded _ inTours position id visited

/-- A problem that can be served, with distances for all of its locations, gets a feasible plan in
which every customer precedes, for the vehicle that serves it and from the stop before it, all
customers with a later turn that the vehicle may serve. -/
theorem construct_greedy (problem : Problem K) (distances : DistanceTable K)
    (served : problem.servable = true) (table : problem.size ≤ distances.size) :
    ∃ solution, construct problem distances = .ok (some solution) ∧
      problem.violations solution = [] ∧
      ∀ pick later : Pick, pick.On solution.plan → later.On solution.plan →
        pick.turn problem.trucks < later.turn problem.trucks →
        problem.admits pick.vehicle later.id = .ok true →
          Precedes distances pick.place pick.id later.id := by
  obtain ⟨solution, past, final, picks, made, feasible, stands, fits, tour⟩ :=
    exists_stands_of_construct served table
  refine ⟨solution, made, feasible, fun pick later read readLater before admitted => ?_⟩
  have greedy := stands.greedy
  have inPicks := stands.mem_picks_of_on fits tour read
  have laterInPicks := stands.mem_picks_of_on fits tour readLater
  have suits : problem.suits pick.vehicle later.id = true := by
    obtain ⟨route, -, -, visited⟩ := readLater
    have customer := Route.ne_depot (List.mem_of_getElem? visited)
    exact (Problem.eq_suits_of_admits customer admitted).symm
  exact rel_of_pairwise_of_key greedy.ordered greedy.nearest inPicks laterInPicks before suits

/-- The drone finds two customers as near as each other and leaves the second one to the truck. -/
theorem construct_greedy_equally_near :
    let problem : Problem Binary64 :=
      ⟨[.depot 0 0, ⟨1, 0, 1, false⟩, ⟨2, 1, 0, true⟩, ⟨3, 1, 1, true⟩], 1, 1, 0, fun _ => 0⟩
    let distances : DistanceTable Binary64 :=
      ⟨4, #v[⟨0⟩, ⟨1⟩, ⟨1⟩, ⟨1⟩, ⟨1⟩, ⟨0⟩, ⟨5⟩, ⟨2⟩, ⟨1⟩, ⟨5⟩, ⟨0⟩, ⟨3⟩, ⟨1⟩, ⟨2⟩, ⟨3⟩, ⟨0⟩]⟩
    let byDrone : Pick := ⟨.drone 0, 0, 0, 2⟩
    let byTruck : Pick := ⟨.truck 0, 1, 1, 3⟩
    problem.servable = true ∧ problem.size ≤ distances.size ∧
      ∃ solution, construct problem distances = .ok (some solution) ∧
        problem.violations solution = [] ∧ byDrone.On solution.plan ∧ byTruck.On solution.plan ∧
        byDrone.turn problem.trucks < byTruck.turn problem.trucks ∧
        problem.admits byDrone.vehicle byTruck.id = .ok true ∧
        Precedes distances byDrone.place byDrone.id byTruck.id := by
  intro problem distances byDrone byTruck
  have served : problem.servable = true := rfl
  have table : problem.size ≤ distances.size := Nat.le_refl _
  obtain ⟨solution, made, feasible, greedy⟩ := construct_greedy problem distances served table
  have firstRound : round problem distances (.idle problem) [1, 2, 3] =
      .ok ([(.truck 0, [1]), (.drone 0, [2])], [3]) := rfl
  have secondRound : round problem distances [(.truck 0, [1]), (.drone 0, [2])] [3] =
      .ok ([(.truck 0, [1, 3]), (.drone 0, [2])], []) := rfl
  have tours : rounds problem distances (.idle problem) problem.customerIds =
      .ok (some [(.truck 0, [1, 3]), (.drone 0, [2])]) := by
    rw [show problem.customerIds = [1, 2, 3] from rfl]
    simp [rounds, firstRound, secondRound]
  have built : construct problem distances =
      .ok (some (problem.assess ⟨[[.truck [1, 3]]], [[.drone [2]]]⟩)) := by
    rw [construct, if_pos served, tours]
    rfl
  obtain rfl := Option.some.inj (Except.ok.inj (built.symm.trans made))
  have first : byDrone.On ⟨[[.truck [1, 3]]], [[.drone [2]]]⟩ :=
    ⟨.drone [2], List.mem_cons_self .., rfl, rfl⟩
  have second : byTruck.On ⟨[[.truck [1, 3]]], [[.drone [2]]]⟩ :=
    ⟨.truck [1, 3], List.mem_cons_self .., rfl, rfl⟩
  have before : byDrone.turn problem.trucks < byTruck.turn problem.trucks :=
    Prod.Lex.toLex_lt_toLex.2 (.inl Nat.zero_lt_one)
  have admitted : problem.admits byDrone.vehicle byTruck.id = .ok true := rfl
  exact ⟨served, table, _, made, feasible, first, second, before, admitted,
    greedy byDrone byTruck first second before admitted⟩

end NearestNeighbor

end TruckDrone
