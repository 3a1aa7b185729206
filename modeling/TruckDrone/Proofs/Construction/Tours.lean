import TruckDrone.Proofs.Sequence
import TruckDrone.Proofs.Violation.Feasible

/-! What becomes of tours: a plan with at most one route for each vehicle, which serves the
problem if the tours deal out every customer to a vehicle that may serve it. -/

set_option autoImplicit false

namespace TruckDrone

variable {K : Type} {problem : Problem K}

theorem getElem?_fleet {trucks drones : Nat} {vehicle : Vehicle}
    (member : vehicle ∈ fleet trucks drones) :
    (fleet trucks drones)[vehicle.unified trucks]? = some vehicle := by
  rw [mem_fleet] at member
  cases vehicle with
  | truck i =>
    have inside : i < trucks + drones := Nat.lt_add_right drones member
    simp [fleet, Vehicle.unified, Vehicle.ofUnified, inside, member]
  | drone i =>
    have inside : trucks + i < trucks + drones := Nat.add_lt_add_left member trucks
    simp [fleet, Vehicle.unified, Vehicle.ofUnified, inside]

namespace Problem

theorem carriers_eq_ok {id : Nat} (inside : id < problem.size) :
    problem.carriers id = .ok (problem.fleet.filter fun vehicle => problem.suits vehicle id) := by
  unfold carriers dronable
  rw [Sequence.entry_eq_ok inside]
  change Except.ok _ = Except.ok _
  congr 2
  funext vehicle
  rw [suits, List.getElem?_eq_getElem inside, Option.any_some, Bool.or_comm]

theorem servable_iff : problem.servable = true ↔ 0 < problem.trucks ∨
    0 < problem.drones ∧ ∀ customer ∈ problem.customers.tail, customer.dronable = true := by
  simp [servable]

theorem exists_carrier (served : problem.servable = true) {id : Nat}
    (customer : id ∈ problem.customerIds) :
    ∃ vehicle ∈ problem.fleet, problem.suits vehicle id = true := by
  rcases servable_iff.1 served with trucks | ⟨drones, dronable⟩
  · exact ⟨.truck 0, mem_fleet.2 trucks, rfl⟩
  · obtain ⟨positive, inside⟩ := mem_customerIds.1 customer
    have present := List.getElem?_eq_getElem inside
    have member : problem.customers[id] ∈ problem.customers.tail := by
      apply List.mem_of_getElem?
      rw [List.getElem?_tail, Nat.sub_add_cancel positive]
      exact present
    refine ⟨.drone 0, mem_fleet.2 drones, ?_⟩
    rw [suits, present, Option.any_some, dronable _ member, Bool.or_true]

/-- Where there is a vehicle or a customer at all, a problem that cannot be served has a customer
that no vehicle may serve. -/
theorem servable_eq_false_iff (someone : 0 < problem.vehicleCount ∨ 0 < problem.customerCount) :
    problem.servable = false ↔ ∃ id ∈ problem.customerIds, problem.carriers id = .ok [] := by
  have none_carries : ∀ id ∈ problem.customerIds, problem.carriers id = .ok [] ↔
      ∀ vehicle ∈ problem.fleet, problem.suits vehicle id = false := by
    intro id customer
    rw [carriers_eq_ok (mem_customerIds.1 customer).2]
    simp
  constructor
  · intro unserved
    have refused : ¬ problem.servable = true := by simp [unserved]
    obtain ⟨noTrucks, notAll⟩ := not_or.1 (mt servable_iff.2 refused)
    have drone : ∀ vehicle ∈ problem.fleet, ∃ i < problem.drones, vehicle = .drone i := by
      intro vehicle inFleet
      rw [fleet, mem_fleet] at inFleet
      cases vehicle with
      | truck i => exact absurd (Nat.zero_lt_of_lt inFleet) noTrucks
      | drone i => exact ⟨i, inFleet, rfl⟩
    by_cases some : 0 < problem.drones
    · obtain ⟨customer, member, grounded⟩ :
          ∃ customer ∈ problem.customers.tail, customer.dronable = false := by
        simpa using fun all => notAll ⟨some, all⟩
      obtain ⟨i, present⟩ := List.mem_iff_getElem?.1 member
      rw [List.getElem?_tail] at present
      have listed : i + 1 ∈ problem.customerIds :=
        mem_customerIds.2 ⟨Nat.succ_pos i, (List.getElem?_eq_some_iff.1 present).1⟩
      refine ⟨i + 1, listed, (none_carries _ listed).2 fun vehicle inFleet => ?_⟩
      obtain ⟨_, -, rfl⟩ := drone vehicle inFleet
      simp [suits, present, grounded, Vehicle.isDrone, Vehicle.kind]
    · -- Without vehicles the first customer will do.
      have listed : 1 ∈ problem.customerIds := by
        unfold vehicleCount customerCount at someone
        exact mem_customerIds.2 ⟨Nat.le_refl 1, by omega⟩
      refine ⟨1, listed, (none_carries _ listed).2 fun vehicle inFleet => ?_⟩
      obtain ⟨_, inside, -⟩ := drone vehicle inFleet
      exact absurd (Nat.zero_lt_of_lt inside) some
  · rintro ⟨id, customer, none⟩
    by_contra served
    obtain ⟨vehicle, inFleet, suits⟩ := exists_carrier (by simpa using served) customer
    rw [(none_carries id customer).1 none vehicle inFleet] at suits
    cases suits

end Problem

namespace Plan

theorem fits_empty (problem : Problem K) : (empty problem.trucks problem.drones).Fits problem :=
  ⟨List.length_replicate, List.length_replicate⟩

theorem routes_empty (trucks drones : Nat) (vehicle : Vehicle) :
    (empty trucks drones).routes vehicle = [] := by
  cases vehicle <;> simp [empty, routes, lists, Vehicle.kind, List.getElem?_replicate] <;>
    split <;> rfl

theorem append_eq_ok {plan : Plan} (fits : plan.Fits problem) {vehicle : Vehicle}
    (member : vehicle ∈ problem.fleet) (route : Route) :
    ∃ grown, plan.append vehicle route = .ok grown ∧ grown.Fits problem ∧
      ∀ other, grown.routes other =
        if other = vehicle then plan.routes vehicle ++ [route] else plan.routes other := by
  have inside : vehicle.index < (plan.lists vehicle.kind).length := by
    rw [Problem.fleet, mem_fleet] at member
    cases vehicle with
    | truck i => exact fits.trucks.symm ▸ member
    | drone i => exact fits.drones.symm ▸ member
  let change (routes : List Route) : Except Fault (List Route) := .ok (routes ++ [route])
  have added : change (plan.routes vehicle) = .ok (plan.routes vehicle ++ [route]) := rfl
  obtain ⟨grown, done, trucks, drones, routes⟩ := revise_eq_ok inside added
  exact ⟨grown, done, ⟨trucks.trans fits.trucks, drones.trans fits.drones⟩, routes⟩

end Plan

def Vehicle.tour (vehicle : Vehicle) (ids : List Nat) : List Route :=
  if ids.isEmpty then [] else [.ofIds vehicle.kind ids]

namespace Vehicle

theorem length_tour_le (vehicle : Vehicle) (ids : List Nat) : (vehicle.tour ids).length ≤ 1 := by
  unfold tour
  split <;> simp

theorem mem_tour {vehicle : Vehicle} {ids : List Nat} {route : Route} :
    route ∈ vehicle.tour ids ↔ ids ≠ [] ∧ route = .ofIds vehicle.kind ids := by
  by_cases none : ids = [] <;> simp [tour, none]

theorem flatMap_body_tour {vehicle : Vehicle} {ids : List Nat} (served : ∀ id ∈ ids, id ≠ depotId) :
    (vehicle.tour ids).flatMap Route.body = ids := by
  unfold tour
  split
  next none => exact (List.isEmpty_iff.1 none).symm
  next => simpa using served

end Vehicle

namespace Tours

/-- Every vehicle has its tour, those of the given ids together, and may serve whom it is to. -/
structure Deals (problem : Problem K) (tours : Tours) (ids : List Nat) : Prop where
  vehicles : tours.map Prod.fst = problem.fleet
  visits : (tours.flatMap Prod.snd).Perm ids
  suits : ∀ entry ∈ tours, ∀ id ∈ entry.2, problem.suits entry.1 id = true

theorem idle_deals (problem : Problem K) : (idle problem).Deals problem [] := by
  constructor
  · simp [idle, Function.comp_def]
  · simp [idle, List.flatMap_map]
  · simp [idle]

/-! Plans made from tours. -/

/-- Placing the tours one by one; the vehicles that are still to come have no routes yet. -/
theorem foldlM_append_eq_ok {tours : Tours} (distinct : (tours.map Prod.fst).Nodup)
    (owned : ∀ entry ∈ tours, entry.1 ∈ problem.fleet) {plan : Plan} (fits : plan.Fits problem)
    (idle : ∀ entry ∈ tours, plan.routes entry.1 = []) :
    ∃ final, tours.foldlM (fun plan (vehicle, ids) =>
        if ids.isEmpty then .ok plan else plan.append vehicle (.ofIds vehicle.kind ids)) plan =
          (.ok final : Except Fault Plan) ∧ final.Fits problem ∧
      (∀ entry ∈ tours, final.routes entry.1 = entry.1.tour entry.2) ∧
      ∀ vehicle, vehicle ∉ tours.map Prod.fst → final.routes vehicle = plan.routes vehicle := by
  induction tours generalizing plan with
  | nil => exact ⟨plan, rfl, fits, by simp, by simp⟩
  | cons entry rest ih =>
    obtain ⟨vehicle, ids⟩ := entry
    obtain ⟨fresh, distinctRest⟩ := List.nodup_cons.1 distinct
    obtain ⟨ownedFirst, ownedRest⟩ := List.forall_mem_cons.1 owned
    obtain ⟨idleFirst, idleRest⟩ := List.forall_mem_cons.1 idle
    obtain ⟨placed, done, fitsPlaced, routes⟩ : ∃ placed : Plan,
        (if ids.isEmpty then .ok plan else plan.append vehicle (.ofIds vehicle.kind ids)) =
          (.ok placed : Except Fault Plan) ∧ placed.Fits problem ∧
        ∀ other, placed.routes other =
          if other = vehicle then vehicle.tour ids else plan.routes other := by
      by_cases none : ids.isEmpty
      · refine ⟨plan, if_pos none, fits, fun other => ?_⟩
        split
        next same => rw [same, idleFirst, Vehicle.tour, if_pos none]
        next => rfl
      · obtain ⟨grown, done, fitsGrown, routes⟩ :=
          Plan.append_eq_ok fits ownedFirst (.ofIds vehicle.kind ids)
        refine ⟨grown, (if_neg none).trans done, fitsGrown, fun other => ?_⟩
        rw [routes, idleFirst, Vehicle.tour, if_neg none, List.nil_append]
    have idleStill : ∀ entry ∈ rest, placed.routes entry.1 = [] := by
      intro entry member
      have apart : entry.1 ≠ vehicle := fun same =>
        fresh (List.mem_map.2 ⟨entry, member, same⟩)
      rw [routes, if_neg apart, idleRest entry member]
    obtain ⟨final, result, fitsFinal, tour, others⟩ :=
      ih distinctRest ownedRest fitsPlaced idleStill
    refine ⟨final, ?_, fitsFinal, List.forall_mem_cons.2 ⟨?_, tour⟩, fun other absent => ?_⟩
    · rw [List.foldlM_cons]
      dsimp only
      rw [done]
      exact result
    · dsimp only
      rw [others vehicle fresh, routes, if_pos rfl]
    · rw [List.map_cons, List.mem_cons, not_or] at absent
      rw [others other absent.2, routes, if_neg absent.1]

theorem toPlan_eq_ok {tours : Tours} (vehicles : tours.map Prod.fst = problem.fleet) :
    ∃ plan, toPlan problem tours = .ok plan ∧ plan.Fits problem ∧
      ∀ entry ∈ tours, plan.routes entry.1 = entry.1.tour entry.2 := by
  have distinct : (tours.map Prod.fst).Nodup := vehicles ▸ nodup_fleet _ _
  have owned : ∀ entry ∈ tours, entry.1 ∈ problem.fleet := fun entry member =>
    vehicles ▸ List.mem_map_of_mem member
  obtain ⟨plan, result, fits, tour, -⟩ := foldlM_append_eq_ok distinct owned
    (Plan.fits_empty problem) fun _ _ => Plan.routes_empty ..
  exact ⟨plan, result, fits, tour⟩

theorem exists_tour {tours : Tours} (vehicles : tours.map Prod.fst = problem.fleet)
    {vehicle : Vehicle} (member : vehicle ∈ problem.fleet) : ∃ ids, (vehicle, ids) ∈ tours := by
  rw [← vehicles] at member
  obtain ⟨⟨_, ids⟩, inTours, rfl⟩ := List.mem_map.1 member
  exact ⟨ids, inTours⟩

theorem length_routes_toSolution {tours : Tours} (vehicles : tours.map Prod.fst = problem.fleet)
    {solution : Solution K} (made : tours.toSolution problem = .ok solution) (vehicle : Vehicle) :
    (solution.plan.routes vehicle).length ≤ 1 := by
  obtain ⟨plan, result, fits, tour⟩ := toPlan_eq_ok vehicles
  rw [toSolution, result] at made
  cases made
  by_cases member : vehicle ∈ problem.fleet
  · obtain ⟨ids, inTours⟩ := exists_tour vehicles member
    exact (tour _ inTours).symm ▸ vehicle.length_tour_le ids
  · simp [Problem.assess, fits.routes_eq_nil member]

/-! Tours that deal out customers. -/

theorem extend_eq_ok_iff {tours extended : Tours} {position id : Nat} :
    tours.extend position id = .ok extended ↔ ∃ front vehicle ids back,
      tours = front ++ (vehicle, ids) :: back ∧ position = front.length ∧
        extended = front ++ (vehicle, ids ++ [id]) :: back := by
  unfold extend
  rw [Fault.bind_eq_ok]
  constructor
  · rintro ⟨⟨vehicle, ids⟩, found, replaced⟩
    obtain ⟨front, back, rfl, rfl⟩ :=
      Sequence.exists_append_of_getElem? (Sequence.entry_eq_ok_iff.1 found)
    refine ⟨front, vehicle, ids, back, rfl, rfl, ?_⟩
    dsimp only at replaced
    rw [Sequence.replaceAt_eq_ok (by simp)] at replaced
    simpa using (Except.ok.inj replaced).symm
  · rintro ⟨front, vehicle, ids, back, rfl, rfl, rfl⟩
    refine ⟨(vehicle, ids), Sequence.entry_eq_ok_iff.2 (by simp), ?_⟩
    dsimp only
    rw [Sequence.replaceAt_eq_ok (by simp)]
    simp

theorem vehicles_extend {tours extended : Tours} {position id : Nat}
    (done : tours.extend position id = .ok extended) :
    extended.map Prod.fst = tours.map Prod.fst := by
  obtain ⟨front, vehicle, ids, back, rfl, -, rfl⟩ := extend_eq_ok_iff.1 done
  simp

namespace Deals

variable {tours : Tours} {ids : List Nat}

theorem mem_ids (deals : tours.Deals problem ids) {entry : Vehicle × List Nat}
    (member : entry ∈ tours) {id : Nat} (visited : id ∈ entry.2) : id ∈ ids :=
  deals.visits.mem_iff.1 (List.mem_flatMap.2 ⟨entry, member, visited⟩)

theorem extend (deals : tours.Deals problem ids) {vehicle : Vehicle}
    (member : vehicle ∈ problem.fleet) {id : Nat} (suits : problem.suits vehicle id = true) :
    ∃ extended, tours.extend (vehicle.unified problem.trucks) id = .ok extended ∧
      extended.Deals problem (ids ++ [id]) := by
  have present := getElem?_fleet member
  rw [← Problem.fleet, ← deals.vehicles, List.getElem?_map, Option.map_eq_some_iff] at present
  obtain ⟨⟨owner, earlier⟩, held, rfl⟩ := present
  obtain ⟨front, back, split, position⟩ := Sequence.exists_append_of_getElem? held
  have done : tours.extend (owner.unified problem.trucks) id =
      .ok (front ++ (owner, earlier ++ [id]) :: back) :=
    extend_eq_ok_iff.2 ⟨front, owner, earlier, back, split, position, rfl⟩
  refine ⟨_, done, (vehicles_extend done).trans deals.vehicles, ?_, ?_⟩
  · have added : ((front ++ (owner, earlier ++ [id]) :: back).flatMap Prod.snd).Perm
        (tours.flatMap Prod.snd ++ [id]) := by
      rw [split]
      simp only [List.flatMap_append, List.flatMap_cons, List.append_assoc]
      exact (List.perm_append_comm.append_left earlier).append_left _
    exact added.trans (deals.visits.append_right _)
  · have before := deals.suits
    rw [split] at before
    intro entry inGrown other visited
    rcases List.mem_append.1 inGrown with inFront | inRest
    · exact before entry (List.mem_append_left _ inFront) other visited
    rcases List.mem_cons.1 inRest with rfl | inBack
    · rcases List.mem_append.1 visited with old | new
      · exact before _ (List.mem_append_right _ (List.mem_cons_self ..)) other old
      · rwa [List.mem_singleton.1 new]
    · exact before entry (List.mem_append_right _ (List.mem_cons_of_mem _ inBack)) other visited

theorem toSolution (deals : tours.Deals problem ids) (all : ids.Perm problem.customerIds) :
    ∃ solution, tours.toSolution problem = .ok solution ∧ solution.plan.Serves problem ∧
      solution.cost = problem.price solution.plan := by
  obtain ⟨plan, result, fits, tour⟩ := toPlan_eq_ok deals.vehicles
  have served : ∀ entry ∈ tours, ∀ id ∈ entry.2, id ≠ depotId := by
    intro entry member id visited
    have customer := all.mem_iff.1 (deals.mem_ids member visited)
    exact Nat.one_le_iff_ne_zero.1 (Problem.mem_customerIds.1 customer).1
  have made : ∀ {vehicle route}, route ∈ plan.routes vehicle → ∃ ids, (vehicle, ids) ∈ tours ∧
      ids ≠ [] ∧ route.kind = vehicle.kind ∧ route.body = ids := by
    intro vehicle route member
    obtain ⟨ids, inTours⟩ := exists_tour deals.vehicles (fits.mem_fleet member)
    rw [tour _ inTours, Vehicle.mem_tour] at member
    obtain ⟨someone, rfl⟩ := member
    exact ⟨ids, inTours, someone, rfl, Route.body_ofIds_of_served (served _ inTours)⟩
  refine ⟨problem.assess plan, ?_, ⟨fits, ?_, ?_, ?_, ?_⟩, rfl⟩
  · rw [Tours.toSolution, result]
    rfl
  · intro vehicle route member
    obtain ⟨_, -, -, kind, -⟩ := made member
    exact kind
  · intro vehicle route member
    obtain ⟨_, -, someone, -, rfl⟩ := made member
    exact someone
  · -- Vehicle by vehicle the routes visit whom the tour lists.
    have visits : plan.allRoutes.flatMap Route.body = tours.flatMap Prod.snd := by
      rw [← fits.flatMap_routes, ← deals.vehicles, List.flatMap_map, List.flatMap_assoc]
      apply List.flatMap_congr
      intro entry member
      rw [tour entry member, Vehicle.flatMap_body_tour (served entry member)]
    exact (visits ▸ deals.visits).trans all
  · intro drone route member id visited
    obtain ⟨_, inTours, -, -, rfl⟩ := made member
    exact Problem.suits_drone.1 (deals.suits _ inTours id visited)

end Deals

end Tours

end TruckDrone
