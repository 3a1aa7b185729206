import TruckDrone.Binary64
import TruckDrone.Proofs.Construction.RandomDeal

/-! Which plans the random construction can come to. A source that answers by a script shows that
every plan with at most one route for each vehicle can be dealt, and a source that keeps a record
shows what is asked of a source on the way. -/

set_option autoImplicit false

namespace TruckDrone

variable {K σ : Type} {problem : Problem K}

/-! Two sources. -/

structure Script where
  order : List Nat
  draws : List Nat
  deriving DecidableEq, Repr

namespace Script

/-- Where the script has no lawful answer another one is given. -/
instance : RandomSource Script where
  shuffle items script := (if script.order.Perm items then script.order else items, script)
  below bound script := match script.draws with
    | [] => (0, script)
    | draw :: rest => (if draw < bound then draw else 0, { script with draws := rest })

theorem shuffle_eq {items : List Nat} {script : Script} (lawful : script.order.Perm items) :
    RandomSource.shuffle items script = (script.order, script) :=
  congrArg (·, script) (if_pos lawful)

theorem below_eq {bound draw : Nat} (lawful : draw < bound) (order rest : List Nat) :
    RandomSource.below bound (⟨order, draw :: rest⟩ : Script) = (draw, ⟨order, rest⟩) :=
  congrArg (·, Script.mk order rest) (if_pos lawful)

instance : LawfulRandomSource Script where
  shuffle_perm items script := by
    change (if script.order.Perm items then script.order else items).Perm items
    split
    · assumption
    · exact .refl _
  below_lt positive script := by
    obtain ⟨order, draws⟩ := script
    cases draws with
    | nil => exact positive
    | cons draw rest =>
      simp only [RandomSource.below]
      split <;> assumption

end Script

/-- A source with the bounds below which numbers were drawn from it, the first of them first. -/
structure Recorded (σ : Type) where
  source : σ
  bounds : List Nat

namespace Recorded

variable [RandomSource σ]

instance : RandomSource (Recorded σ) where
  shuffle items record :=
    let (order, source) := RandomSource.shuffle items record.source
    (order, { record with source })
  below bound record :=
    let (choice, source) := RandomSource.below bound record.source
    (choice, ⟨source, record.bounds ++ [bound]⟩)

theorem shuffle_eq (items : List Nat) (source : σ) (bounds : List Nat) :
    RandomSource.shuffle items (⟨source, bounds⟩ : Recorded σ) =
      ((RandomSource.shuffle items source).1,
        ⟨(RandomSource.shuffle items source).2, bounds⟩) := rfl

theorem below_eq (bound : Nat) (source : σ) (bounds : List Nat) :
    RandomSource.below bound (⟨source, bounds⟩ : Recorded σ) =
      ((RandomSource.below bound source).1,
        ⟨(RandomSource.below bound source).2, bounds ++ [bound]⟩) := rfl

end Recorded

/-! Dealing by assignments. -/

theorem Problem.exists_split_fleet {vehicle : Vehicle} (member : vehicle ∈ problem.fleet) :
    ∃ front back, problem.fleet = front ++ vehicle :: back ∧
      vehicle.unified problem.trucks = front.length ∧ vehicle ∉ front ∧ vehicle ∉ back := by
  obtain ⟨front, back, split, position⟩ :=
    Sequence.exists_append_of_getElem? (getElem?_fleet member)
  have distinct := split ▸ nodup_fleet problem.trucks problem.drones
  obtain ⟨-, others, apart⟩ := List.nodup_append.1 distinct
  exact ⟨front, back, split, position,
    fun inFront => apart vehicle inFront vehicle (List.mem_cons_self ..) rfl,
    (List.nodup_cons.1 others).1⟩

def granted (assignments : List (Vehicle × Nat)) (vehicle : Vehicle) : List Nat :=
  assignments.flatMap fun (owner, id) => if owner = vehicle then [id] else []

theorem granted_flatMap_fleet {vehicle : Vehicle} (member : vehicle ∈ problem.fleet)
    (bodies : Vehicle → List Nat) :
    granted (problem.fleet.flatMap fun owner => (bodies owner).map (owner, ·)) vehicle =
      bodies vehicle := by
  have own : granted ((bodies vehicle).map (vehicle, ·)) vehicle = bodies vehicle := by
    simp [granted, List.flatMap_map]
  have other : ∀ owners : List Vehicle, vehicle ∉ owners →
      granted (owners.flatMap fun owner => (bodies owner).map (owner, ·)) vehicle = [] := by
    intro owners absent
    simp only [granted, List.flatMap_eq_nil_iff, List.mem_flatMap, List.mem_map]
    rintro _ ⟨owner, listed, id, -, rfl⟩
    exact if_neg fun same : owner = vehicle => absent (same ▸ listed)
  obtain ⟨front, back, split, -, notBefore, notAfter⟩ := Problem.exists_split_fleet member
  rw [split, List.flatMap_append, List.flatMap_cons, granted, List.flatMap_append,
    List.flatMap_append, ← granted, ← granted, ← granted, own, other front notBefore,
    other back notAfter, List.nil_append, List.append_nil]

theorem Tours.extend_map {vehicle : Vehicle} (member : vehicle ∈ problem.fleet)
    (held : Vehicle → List Nat) (id : Nat) :
    Tours.extend (problem.fleet.map fun owner => (owner, held owner))
        (vehicle.unified problem.trucks) id =
      .ok (problem.fleet.map fun owner =>
        (owner, held owner ++ granted [(vehicle, id)] owner)) := by
  have other : ∀ owners : List Vehicle, vehicle ∉ owners →
      (owners.map fun owner => (owner, held owner ++ granted [(vehicle, id)] owner)) =
        owners.map fun owner => (owner, held owner) := by
    intro owners absent
    apply List.map_congr_left
    intro owner listed
    have apart : vehicle ≠ owner := fun same => absent (same ▸ listed)
    simp [granted, apart]
  obtain ⟨front, back, split, position, notBefore, notAfter⟩ := Problem.exists_split_fleet member
  rw [Tours.extend_eq_ok_iff, split]
  refine ⟨front.map fun owner => (owner, held owner), vehicle, held vehicle,
    back.map fun owner => (owner, held owner), by simp, by simpa using position, ?_⟩
  rw [List.map_append, List.map_cons, other front notBefore, other back notAfter]
  simp [granted]

namespace RandomDeal

/-- The number to draw so that the customer goes to the vehicle. -/
def choice (problem : Problem K) (assignment : Vehicle × Nat) : Nat :=
  (problem.fleet.filter fun vehicle => problem.suits vehicle assignment.2).idxOf assignment.1

theorem deal_script {assignments : List (Vehicle × Nat)}
    (fair : ∀ assignment ∈ assignments, assignment.1 ∈ problem.fleet ∧
      assignment.2 ∈ problem.customerIds ∧ problem.suits assignment.1 assignment.2 = true)
    (held : Vehicle → List Nat) (order : List Nat) :
    deal problem (assignments.map Prod.snd) (problem.fleet.map fun owner => (owner, held owner))
        (⟨order, assignments.map (choice problem)⟩ : Script) =
      .ok (problem.fleet.map fun owner => (owner, held owner ++ granted assignments owner),
        ⟨order, []⟩) := by
  induction assignments generalizing held with
  | nil => simp [deal, granted]
  | cons assignment rest ih =>
    obtain ⟨vehicle, id⟩ := assignment
    obtain ⟨⟨owned, customer, suits⟩, others⟩ := List.forall_mem_cons.1 fair
    have carries : vehicle ∈ problem.fleet.filter fun vehicle => problem.suits vehicle id :=
      List.mem_filter.2 ⟨owned, suits⟩
    have inside := List.idxOf_lt_length_of_mem carries
    rw [List.map_cons, List.map_cons, deal,
      Problem.carriers_eq_ok (Problem.mem_customerIds.1 customer).2, Fault.ok_bind]
    dsimp only
    rw [choice, Script.below_eq inside, Sequence.entry_eq_ok inside, Fault.ok_bind,
      List.getElem_idxOf, Tours.extend_map owned, Fault.ok_bind, ih others]
    simp [granted]

def assignments (problem : Problem K) (plan : Plan) : List (Vehicle × Nat) :=
  problem.fleet.flatMap fun vehicle =>
    ((plan.routes vehicle).flatMap Route.body).map (vehicle, ·)

theorem order_assignments {plan : Plan} (serves : plan.Serves problem) :
    ((assignments problem plan).map Prod.snd).Perm problem.customerIds := by
  have visits : (assignments problem plan).map Prod.snd = plan.allRoutes.flatMap Route.body := by
    rw [← serves.flatMap_routes, assignments, List.map_flatMap, List.flatMap_assoc]
    simp [Function.comp_def]
  exact visits ▸ serves.visits

theorem assignments_fair {plan : Plan} (serves : plan.Serves problem) :
    ∀ assignment ∈ assignments problem plan, assignment.1 ∈ problem.fleet ∧
      assignment.2 ∈ problem.customerIds ∧ problem.suits assignment.1 assignment.2 = true := by
  intro assignment member
  obtain ⟨vehicle, owned, listed⟩ := List.mem_flatMap.1 member
  obtain ⟨id, visited, rfl⟩ := List.mem_map.1 listed
  obtain ⟨route, held, visited⟩ := List.mem_flatMap.1 visited
  exact ⟨owned, serves.mem_customerIds (Plan.mem_allRoutes_of_mem_routes held) visited,
    serves.suits held visited⟩

theorem tour_of_single {plan : Plan} (serves : plan.Serves problem) {vehicle : Vehicle}
    (single : (plan.routes vehicle).length ≤ 1) :
    vehicle.tour ((plan.routes vehicle).flatMap Route.body) = plan.routes vehicle := by
  have kinds := serves.kinds vehicle
  have someone := serves.someone vehicle
  match held : plan.routes vehicle with
  | [] => rfl
  | [route] =>
    have member : route ∈ plan.routes vehicle := by simp [held]
    have visits : [route].flatMap Route.body = route.body := List.flatMap_singleton ..
    rw [visits, Vehicle.tour, if_neg (by simpa using someone route member)]
    congr 1
    exact Route.ext_iff_body.2 ⟨(kinds route member).symm,
      Route.body_ofIds_of_served fun _ => Route.ne_depot⟩
  | _ :: _ :: _ =>
    rw [held] at single
    simp at single

/-- Dealing out the assignments of a plan that serves the problem makes the plan again. -/
theorem exists_script {plan : Plan} (served : problem.servable = true)
    (serves : plan.Serves problem) (single : ∀ vehicle, (plan.routes vehicle).length ≤ 1) :
    ∃ (script left : Script) (solution : Solution K),
      construct problem script = .ok (some solution, left) ∧ solution.plan = plan := by
  let order := (assignments problem plan).map Prod.snd
  let script : Script := ⟨order, (assignments problem plan).map (choice problem)⟩
  let dealt : Tours := problem.fleet.map fun owner =>
    (owner, (plan.routes owner).flatMap Route.body)
  have shuffled : RandomSource.shuffle problem.customerIds script = (order, script) :=
    Script.shuffle_eq (order_assignments serves)
  have done : deal problem order (.idle problem) script = .ok (dealt, ⟨order, []⟩) := by
    rw [Tours.idle, deal_script (assignments_fair serves) fun _ => []]
    congr 2
    apply List.map_congr_left
    intro owner member
    rw [List.nil_append, assignments, granted_flatMap_fleet member]
  have vehicles : dealt.map Prod.fst = problem.fleet := by
    simp [dealt, Function.comp_def]
  obtain ⟨made, result, fits, tour⟩ := Tours.toPlan_eq_ok vehicles
  have same : made = plan := by
    apply Plan.eq_of_routes (fits.trucks.trans serves.trucks.symm)
      (fits.drones.trans serves.drones.symm)
    intro vehicle
    by_cases member : vehicle ∈ problem.fleet
    · rw [tour _ (List.mem_map_of_mem member), tour_of_single serves (single vehicle)]
    · rw [fits.routes_eq_nil member, serves.routes_eq_nil member]
  refine ⟨script, ⟨order, []⟩, problem.assess made, ?_, same⟩
  rw [construct, if_pos served, shuffled]
  dsimp only
  rw [done, Fault.ok_bind]
  dsimp only
  rw [Tours.toSolution, result]
  rfl

/-! What is drawn on the way. -/

/-- A deal that succeeds has drawn once for each customer, and never among no vehicles. -/
theorem deal_recorded [RandomSource σ] {order : List Nat} {tours dealt : Tours} {source left : σ}
    (done : deal problem order tours source = .ok (dealt, left)) (earlier : List Nat) :
    ∃ bounds, deal problem order tours (⟨source, earlier⟩ : Recorded σ) =
        .ok (dealt, ⟨left, earlier ++ bounds⟩) ∧
      bounds.length = order.length ∧ ∀ bound ∈ bounds, 0 < bound := by
  induction order generalizing tours source earlier with
  | nil =>
    cases done
    exact ⟨[], by simp [deal], rfl, by simp⟩
  | cons id rest ih =>
    obtain ⟨vehicles, carriers, done⟩ := Fault.bind_eq_ok.1 done
    dsimp only at done
    obtain ⟨vehicle, drawn, done⟩ := Fault.bind_eq_ok.1 done
    obtain ⟨extended, grown, done⟩ := Fault.bind_eq_ok.1 done
    obtain ⟨bounds, further, length, positive⟩ := ih done (earlier ++ [vehicles.length])
    have someone : 0 < vehicles.length :=
      List.length_pos_of_mem (List.mem_of_getElem? (Sequence.entry_eq_ok_iff.1 drawn))
    refine ⟨vehicles.length :: bounds, ?_, by simp [length],
      List.forall_mem_cons.2 ⟨someone, positive⟩⟩
    rw [List.append_assoc] at further
    rw [deal, carriers, Fault.ok_bind, Recorded.below_eq]
    dsimp only
    rw [drawn, Fault.ok_bind, grown, Fault.ok_bind]
    exact further

theorem construct_recorded [RandomSource σ] [LawfulRandomSource σ] {source left : σ}
    {solution : Solution K} (made : construct problem source = .ok (some solution, left)) :
    ∃ bounds, construct problem (⟨source, []⟩ : Recorded σ) =
        .ok (some solution, ⟨left, bounds⟩) ∧
      bounds.length = problem.customerIds.length ∧ ∀ bound ∈ bounds, 0 < bound := by
  unfold construct at made ⊢
  split at made
  next served =>
    dsimp only at made
    obtain ⟨⟨tours, _⟩, dealt, made⟩ := Fault.bind_eq_ok.1 made
    obtain ⟨first, solved, made⟩ := Fault.bind_eq_ok.1 made
    cases made
    obtain ⟨bounds, recorded, length, positive⟩ := deal_recorded dealt []
    have all := LawfulRandomSource.shuffle_perm problem.customerIds source
    refine ⟨bounds, ?_, length.trans all.length_eq, positive⟩
    rw [if_pos served, Recorded.shuffle_eq]
    dsimp only
    rw [recorded, Fault.ok_bind]
    dsimp only
    rw [solved]
    rfl
  next => cases made

def Reaches (problem : Problem K) (plan : Plan) : Prop :=
  ∃ (σ : Type) (_ : RandomSource σ) (_ : LawfulRandomSource σ) (source left : σ)
    (solution : Solution K),
    construct problem source = .ok (some solution, left) ∧ solution.plan = plan

/-- The construction can come to just those plans that serve the problem with at most one route
for each vehicle. With every lawful source it ends in a plan, having drawn once for each customer
and never among no vehicles. For a problem that cannot be served it has none, and asks no source
for anything. -/
theorem construct_exact (problem : Problem K) :
    (problem.servable = true →
      (∀ plan, Reaches problem plan ↔ problem.violations (problem.assess plan) = [] ∧
        ∀ vehicle, (plan.routes vehicle).length ≤ 1) ∧
      ∀ {σ : Type} [RandomSource σ] [LawfulRandomSource σ] (source : σ), ∃ solution left bounds,
        construct problem source = .ok (some solution, left) ∧
          construct problem (⟨source, []⟩ : Recorded σ) = .ok (some solution, ⟨left, bounds⟩) ∧
          bounds.length = problem.customerIds.length ∧ ∀ bound ∈ bounds, 0 < bound) ∧
    (problem.servable = false → ∀ {σ : Type} [RandomSource σ] (source : σ),
      construct problem source = .ok (none, source)) := by
  refine ⟨fun served => ⟨fun plan => ⟨?_, ?_⟩, fun {σ} _ _ source => ?_⟩,
    fun unserved {σ} _ _ => ?_⟩
  · rintro ⟨σ, _, _, source, left, solution, made, rfl⟩
    obtain ⟨first, rest, same, serves, -⟩ := construct_eq_ok served source
    cases made.symm.trans same
    exact ⟨serves.violations_eq_nil, length_routes_construct made⟩
  · rintro ⟨clean, single⟩
    obtain ⟨script, left, solution, made, same⟩ :=
      exists_script served (serves_of_violations_eq_nil clean) single
    exact ⟨Script, inferInstance, inferInstance, script, left, solution, made, same⟩
  · obtain ⟨solution, left, made, -⟩ := construct_eq_ok served source
    obtain ⟨bounds, recorded, length, positive⟩ := construct_recorded made
    exact ⟨solution, left, bounds, made, recorded, length, positive⟩
  · rw [construct, unserved]
    rfl

theorem construct_exact_truck_drone :
    let problem : Problem Binary64 :=
      ⟨[.depot 0 0, ⟨1, 0, 1, false⟩, ⟨2, 1, 0, true⟩, ⟨3, 1, 1, true⟩], 1, 1, 0, fun _ => 0⟩
    problem.servable = true ∧ Reaches problem ⟨[[.truck [2, 1]]], [[.drone [3]]]⟩ := by
  intro problem
  have served : problem.servable = true := by decide
  refine ⟨served, (((construct_exact problem).1 served).1 _).2 ⟨by decide, ?_⟩⟩
  rintro (i | i) <;> cases i <;> simp [Plan.routes, Plan.lists, Vehicle.kind, Vehicle.index]

end RandomDeal

end TruckDrone
