import Mathlib.Data.List.Basic
import TruckDrone.Plan
import TruckDrone.Proofs.Fault

/-! Plans in which some slots are given anew, all at once. Placing one route after another
comes to such a replacement, and a replacement says of every slot what it holds. -/

set_option autoImplicit false

namespace TruckDrone.Plan

def occupant? (plan : Plan) (slot : Slot) : Option Route :=
  (plan.routes slot.vehicle)[slot.position]?

/-- What is left of the route of a slot: what is listed for the slot, or else the route. -/
def settled (placed : List (Slot × Option Route)) (slot : Slot) (route : Route) : Option Route :=
  (placed.lookup slot).getD (some route)

def replaceRoutes (placed : List (Slot × Option Route)) (vehicle : Vehicle)
    (routes : List Route) : List Route :=
  (routes.mapIdx fun position route => settled placed ⟨vehicle, position⟩ route).filterMap id

/-- The plan in which each listed slot holds the route listed for it, or is dropped if none
is. All other slots keep their routes. -/
def replace (plan : Plan) (placed : List (Slot × Option Route)) : Plan where
  trucks := plan.trucks.mapIdx fun i routes => replaceRoutes placed (.truck i) routes
  drones := plan.drones.mapIdx fun i routes => replaceRoutes placed (.drone i) routes

theorem eq_of_routes {first second : Plan} (trucks : first.trucks.length = second.trucks.length)
    (drones : first.drones.length = second.drones.length)
    (routes : ∀ vehicle, first.routes vehicle = second.routes vehicle) : first = second := by
  have same : ∀ {left right : List (List Route)}, left.length = right.length →
      (∀ i : Nat, (left[i]?).getD [] = (right[i]?).getD []) → left = right := by
    intro left right length entries
    apply List.ext_getElem length
    intro i inLeft inRight
    simpa [inLeft, inRight] using entries i
  cases first with
  | mk firstTrucks firstDrones =>
    cases second with
    | mk secondTrucks secondDrones =>
      have sameTrucks : firstTrucks = secondTrucks := same trucks fun i => routes (.truck i)
      have sameDrones : firstDrones = secondDrones := same drones fun i => routes (.drone i)
      rw [sameTrucks, sameDrones]

theorem eq_of_occupant? {first second : Plan} (trucks : first.trucks.length = second.trucks.length)
    (drones : first.drones.length = second.drones.length)
    (occupants : ∀ slot, first.occupant? slot = second.occupant? slot) : first = second :=
  eq_of_routes trucks drones fun vehicle =>
    List.ext_getElem? fun position => occupants ⟨vehicle, position⟩

@[simp] theorem length_trucks_replace (plan : Plan) (placed : List (Slot × Option Route)) :
    (plan.replace placed).trucks.length = plan.trucks.length := List.length_mapIdx

@[simp] theorem length_drones_replace (plan : Plan) (placed : List (Slot × Option Route)) :
    (plan.replace placed).drones.length = plan.drones.length := List.length_mapIdx

theorem routes_replace (plan : Plan) (placed : List (Slot × Option Route)) (vehicle : Vehicle) :
    (plan.replace placed).routes vehicle = replaceRoutes placed vehicle (plan.routes vehicle) := by
  cases vehicle with
  | truck i =>
    cases present : plan.trucks[i]? <;>
      simp [routes, lists, Vehicle.kind, Vehicle.index, replace, present, replaceRoutes]
  | drone i =>
    cases present : plan.drones[i]? <;>
      simp [routes, lists, Vehicle.kind, Vehicle.index, replace, present, replaceRoutes]

/-! What a replacement leaves of one route, and of the routes of one vehicle. -/

theorem settled_of_not_listed {placed : List (Slot × Option Route)} {slot : Slot}
    (absent : slot ∉ placed.map Prod.fst) (route : Route) :
    settled placed slot route = some route := by
  have missing : placed.lookup slot = none := by
    rw [List.lookup_eq_none_iff]
    intro entry member
    have apart : slot ≠ entry.1 := fun same => absent (same ▸ List.mem_map_of_mem member)
    simpa using apart
  rw [settled, missing, Option.getD_none]

@[simp] theorem settled_singleton (slot : Slot) (outcome : Option Route) (place : Slot)
    (route : Route) :
    settled [(slot, outcome)] place route = if place = slot then outcome else some route := by
  by_cases same : place = slot
  · simp [settled, same]
  · rw [if_neg same, settled_of_not_listed (by simpa using same)]

/-- Where nothing is dropped every position keeps a route. -/
theorem replaceRoutes_of_settled {placed : List (Slot × Option Route)} {vehicle : Vehicle}
    (changed : Nat → Route → Route) (kept : ∀ position route,
      settled placed ⟨vehicle, position⟩ route = some (changed position route))
    (routes : List Route) : replaceRoutes placed vehicle routes = routes.mapIdx changed := by
  have entries : (routes.mapIdx fun position route => settled placed ⟨vehicle, position⟩ route) =
      (routes.mapIdx changed).map some := by
    apply List.ext_getElem (by simp)
    intro position _ _
    simp [kept]
  rw [replaceRoutes, entries, List.filterMap_map, Function.id_comp, List.filterMap_some]

theorem replaceRoutes_of_not_listed {placed : List (Slot × Option Route)} {vehicle : Vehicle}
    (absent : ∀ entry ∈ placed, entry.1.vehicle ≠ vehicle) (routes : List Route) :
    replaceRoutes placed vehicle routes = routes := by
  rw [replaceRoutes_of_settled fun _ route => route]
  · exact List.ext_getElem (by simp) fun position _ _ => by simp
  · intro position route
    refine settled_of_not_listed (fun member => ?_) route
    obtain ⟨entry, inPlaced, same⟩ := List.mem_map.1 member
    exact absent entry inPlaced (by rw [same])

theorem replaceRoutes_some (slot : Slot) (route : Route) (routes : List Route) :
    replaceRoutes [(slot, some route)] slot.vehicle routes = routes.set slot.position route := by
  rw [replaceRoutes_of_settled fun position old =>
    if position = slot.position then route else old]
  · apply List.ext_getElem (by simp)
    intro position _ _
    simp [List.getElem_set, eq_comm]
  · intro position old
    by_cases same : position = slot.position
    · simp [same]
    · have apart : (⟨slot.vehicle, position⟩ : Slot) ≠ slot := fun equal =>
        same (congrArg Slot.position equal)
      simp [same, apart]

theorem replaceRoutes_none (vehicle : Vehicle) (position : Nat) (routes : List Route) :
    replaceRoutes [(⟨vehicle, position⟩, none)] vehicle routes = routes.eraseIdx position := by
  unfold replaceRoutes
  simp only [settled_singleton, Slot.mk.injEq, true_and]
  induction routes generalizing position with
  | nil => rfl
  | cons head tail ih =>
    cases position with
    | zero =>
      have rest : replaceRoutes [] vehicle tail = tail :=
        replaceRoutes_of_not_listed (by simp) tail
      simpa [List.mapIdx_cons, replaceRoutes, settled] using rest
    | succ position => simpa [List.mapIdx_cons] using ih position

theorem routes_replace_some (plan : Plan) (slot : Slot) (route : Route) (vehicle : Vehicle) :
    (plan.replace [(slot, some route)]).routes vehicle =
      if vehicle = slot.vehicle then (plan.routes vehicle).set slot.position route
      else plan.routes vehicle := by
  rw [routes_replace]
  by_cases same : vehicle = slot.vehicle
  · rw [if_pos same, same, replaceRoutes_some]
  · rw [if_neg same, replaceRoutes_of_not_listed]
    simpa using Ne.symm same

/-! Placing a route as a replacement. -/

theorem getD_set {lists : List (List Route)} {i : Nat} (inside : i < lists.length)
    (changed : List Route) (k : Nat) :
    ((lists.set i changed)[k]?).getD [] = if k = i then changed else (lists[k]?).getD [] := by
  by_cases same : k = i
  · simp [same, inside]
  · simp [same, List.getElem?_set_ne (Ne.symm same)]

theorem index_lt_of_routes_ne_nil {plan : Plan} {vehicle : Vehicle}
    (present : plan.routes vehicle ≠ []) : vehicle.index < (plan.lists vehicle.kind).length := by
  by_contra outside
  exact present (by simp [routes, Nat.le_of_not_lt outside])

/-- Revising the routes of a vehicle that has a list, by a change that succeeds on them. -/
theorem revise_eq_ok {plan : Plan} {vehicle : Vehicle}
    {change : List Route → Except Fault (List Route)} {changed : List Route}
    (inside : vehicle.index < (plan.lists vehicle.kind).length)
    (done : change (plan.routes vehicle) = .ok changed) :
    ∃ revised, plan.revise vehicle change = .ok revised ∧
      revised.trucks.length = plan.trucks.length ∧ revised.drones.length = plan.drones.length ∧
      ∀ other, revised.routes other = if other = vehicle then changed else plan.routes other := by
  cases vehicle with
  | truck i =>
    change i < plan.trucks.length at inside
    have given : change plan.trucks[i] = .ok changed := by
      simpa [routes, lists, Vehicle.kind, Vehicle.index, inside] using done
    refine ⟨{ plan with trucks := plan.trucks.set i changed }, ?_, List.length_set, rfl, ?_⟩
    · simp only [revise, Sequence.entry_eq_ok inside, Fault.ok_bind, given,
        Sequence.replaceAt_eq_ok inside]
      rfl
    · rintro (k | k)
      · simpa [routes, lists, Vehicle.kind, Vehicle.index] using getD_set inside changed k
      · rfl
  | drone i =>
    change i < plan.drones.length at inside
    have given : change plan.drones[i] = .ok changed := by
      simpa [routes, lists, Vehicle.kind, Vehicle.index, inside] using done
    refine ⟨{ plan with drones := plan.drones.set i changed }, ?_, rfl, List.length_set, ?_⟩
    · simp only [revise, Sequence.entry_eq_ok inside, Fault.ok_bind, given,
        Sequence.replaceAt_eq_ok inside]
      rfl
    · rintro (k | k)
      · rfl
      · simpa [routes, lists, Vehicle.kind, Vehicle.index] using getD_set inside changed k

theorem routes_ne_nil {plan : Plan} {slot : Slot} {route : Route}
    (occupied : plan.occupant? slot = some route) : plan.routes slot.vehicle ≠ [] := by
  intro none
  simp [occupant?, none] at occupied

theorem position_lt {plan : Plan} {slot : Slot} {route : Route}
    (occupied : plan.occupant? slot = some route) :
    slot.position < (plan.routes slot.vehicle).length :=
  (List.getElem?_eq_some_iff.1 occupied).1

theorem mem_allRoutes {plan : Plan} {slot : Slot} {route : Route}
    (occupied : plan.occupant? slot = some route) : route ∈ plan.allRoutes := by
  have member : route ∈ plan.routes slot.vehicle := List.mem_of_getElem? occupied
  unfold routes at member
  cases present : (plan.lists slot.vehicle.kind)[slot.vehicle.index]? with
  | none => simp [present] at member
  | some routes =>
    rw [present, Option.getD_some] at member
    refine List.mem_flatten.2 ⟨routes, List.mem_append.2 ?_, member⟩
    have listed := List.mem_of_getElem? present
    cases owner : slot.vehicle.kind with
    | truck => exact .inl (by simpa [lists, owner] using listed)
    | drone => exact .inr (by simpa [lists, owner] using listed)

theorem exists_slot {plan : Plan} {route : Route} (member : route ∈ plan.allRoutes) :
    ∃ slot, plan.occupant? slot = some route := by
  obtain ⟨routes, listed, held⟩ := List.mem_flatten.1 member
  obtain ⟨position, present⟩ := List.mem_iff_getElem?.1 held
  rcases List.mem_append.1 listed with truck | drone
  · obtain ⟨i, entry⟩ := List.mem_iff_getElem?.1 truck
    refine ⟨⟨.truck i, position⟩, ?_⟩
    simpa [occupant?, Plan.routes, lists, Vehicle.kind, Vehicle.index, entry] using present
  · obtain ⟨i, entry⟩ := List.mem_iff_getElem?.1 drone
    refine ⟨⟨.drone i, position⟩, ?_⟩
    simpa [occupant?, Plan.routes, lists, Vehicle.kind, Vehicle.index, entry] using present

theorem revise_eq_replace {plan : Plan} {slot : Slot} {outcome : Option Route}
    {change : List Route → Except Fault (List Route)} (present : plan.routes slot.vehicle ≠ [])
    (done : change (plan.routes slot.vehicle) =
      .ok (replaceRoutes [(slot, outcome)] slot.vehicle (plan.routes slot.vehicle))) :
    plan.revise slot.vehicle change = .ok (plan.replace [(slot, outcome)]) := by
  obtain ⟨revised, result, trucks, drones, routes⟩ :=
    revise_eq_ok (index_lt_of_routes_ne_nil present) done
  rw [result]
  congr 1
  apply eq_of_routes (by simp [trucks]) (by simp [drones])
  intro vehicle
  rw [routes, routes_replace]
  by_cases same : vehicle = slot.vehicle
  · rw [if_pos same, same]
  · rw [if_neg same, replaceRoutes_of_not_listed]
    simpa using Ne.symm same

theorem put_eq_replace {plan : Plan} {slot : Slot} {old : Route}
    (occupied : plan.occupant? slot = some old) (route : Route) :
    plan.put slot route = .ok (plan.replace [(slot, some route)]) := by
  refine revise_eq_replace (routes_ne_nil occupied) ?_
  rw [replaceRoutes_some]
  exact Sequence.replaceAt_eq_ok (position_lt occupied) route

def assigned (vehicle : Vehicle) (ids : List Nat) : Option Route :=
  let route := Route.ofIds vehicle.kind ids
  if route.isEmpty then none else some route

theorem assign_eq_replace {plan : Plan} {slot : Slot} {old : Route}
    (occupied : plan.occupant? slot = some old) (ids : List Nat) :
    plan.assign slot ids = .ok (plan.replace [(slot, assigned slot.vehicle ids)]) := by
  refine revise_eq_replace (routes_ne_nil occupied) ?_
  unfold assigned
  by_cases empty : (Route.ofIds slot.vehicle.kind ids).isEmpty
  · rw [if_pos empty, if_pos empty, replaceRoutes_none]
    exact Sequence.eraseAt_eq_ok (position_lt occupied)
  · rw [if_neg empty, if_neg empty, replaceRoutes_some]
    exact Sequence.replaceAt_eq_ok (position_lt occupied) _

def Keeps (placed : List (Slot × Option Route)) : Prop := ∀ entry ∈ placed, entry.2.isSome

theorem isSome_settled {placed : List (Slot × Option Route)} (keeps : Keeps placed) (slot : Slot)
    (route : Route) : (settled placed slot route).isSome := by
  unfold settled
  cases listed : placed.lookup slot with
  | none => rfl
  | some outcome =>
    obtain ⟨before, after, split, -⟩ := List.lookup_eq_some_iff.1 listed
    exact keeps (slot, outcome) (by simp [split])

def resettled (placed : List (Slot × Option Route)) (slot : Slot) (route : Route) : Route :=
  (settled placed slot route).getD route

theorem settled_eq_resettled {placed : List (Slot × Option Route)} (keeps : Keeps placed)
    (slot : Slot) (route : Route) :
    settled placed slot route = some (resettled placed slot route) := by
  obtain ⟨after, same⟩ := Option.isSome_iff_exists.1 (isSome_settled keeps slot route)
  simp [resettled, same]

theorem resettled_of_not_listed {placed : List (Slot × Option Route)} {slot : Slot}
    (absent : slot ∉ placed.map Prod.fst) (route : Route) :
    resettled placed slot route = route := by
  rw [resettled, settled_of_not_listed absent, Option.getD_some]

theorem mem_of_listed {placed : List (Slot × Option Route)} (keeps : Keeps placed) {slot : Slot}
    (listed : slot ∈ placed.map Prod.fst) (route : Route) :
    (slot, some (resettled placed slot route)) ∈ placed := by
  cases found : placed.lookup slot with
  | none =>
    obtain ⟨entry, member, rfl⟩ := List.mem_map.1 listed
    simpa using List.lookup_eq_none_iff.1 found entry member
  | some outcome =>
    obtain ⟨before, after, split, -⟩ := List.lookup_eq_some_iff.1 found
    have same := settled_eq_resettled keeps slot route
    rw [settled, found, Option.getD_some] at same
    rw [← same, split]
    simp

theorem occupant?_replace {placed : List (Slot × Option Route)} (keeps : Keeps placed)
    (plan : Plan) (slot : Slot) :
    (plan.replace placed).occupant? slot = (plan.occupant? slot).map (resettled placed slot) := by
  rw [occupant?, routes_replace, replaceRoutes_of_settled (fun position route =>
    resettled placed ⟨slot.vehicle, position⟩ route) fun position route =>
      settled_eq_resettled keeps _ route, List.getElem?_mapIdx]
  rfl

theorem occupant?_replace_of_not_listed {placed : List (Slot × Option Route)} (keeps : Keeps placed)
    (plan : Plan) {slot : Slot} (absent : slot ∉ placed.map Prod.fst) :
    (plan.replace placed).occupant? slot = plan.occupant? slot := by
  have same : resettled placed slot = id := funext (resettled_of_not_listed absent)
  rw [occupant?_replace keeps, same, Option.map_id_fun, id]

theorem occupant?_replace_some {plan : Plan} {slot : Slot} {old : Route}
    (occupied : plan.occupant? slot = some old) (route : Route) :
    (plan.replace [(slot, some route)]).occupant? slot = some route := by
  rw [occupant?_replace (by simp [Keeps]), occupied]
  simp [resettled]

theorem occupant?_replace_pair {plan : Plan} {left right : Slot} (apart : left ≠ right)
    {oldLeft oldRight : Route} (holdsLeft : plan.occupant? left = some oldLeft)
    (holdsRight : plan.occupant? right = some oldRight) (newLeft newRight : Route) :
    let after := plan.replace [(left, some newLeft), (right, some newRight)]
    after.occupant? left = some newLeft ∧ after.occupant? right = some newRight := by
  have keeps : Keeps [(left, some newLeft), (right, some newRight)] := by
    simp [Keeps]
  dsimp only
  rw [occupant?_replace keeps, occupant?_replace keeps, holdsLeft, holdsRight]
  simp [resettled, settled, List.lookup_cons, beq_false_of_ne apart.symm]

theorem replace_restore {plan : Plan} {placed back : List (Slot × Option Route)}
    (keeps : Keeps placed) (keepsBack : Keeps back)
    (slots : back.map Prod.fst = placed.map Prod.fst)
    (held : ∀ entry ∈ back, plan.occupant? entry.1 = entry.2) :
    (plan.replace placed).replace back = plan := by
  apply eq_of_occupant? (by simp) (by simp)
  intro slot
  by_cases listed : slot ∈ placed.map Prod.fst
  · rw [occupant?_replace keepsBack, occupant?_replace keeps]
    cases present : plan.occupant? slot with
    | none => rfl
    | some route =>
      have restored := held _ (mem_of_listed keepsBack (slots ▸ listed)
        (resettled placed slot route))
      exact restored.symm.trans present
  · rw [occupant?_replace_of_not_listed keepsBack _ (slots ▸ listed),
      occupant?_replace_of_not_listed keeps _ listed]

theorem length_routes_replace {placed : List (Slot × Option Route)} (keeps : Keeps placed)
    (plan : Plan) (vehicle : Vehicle) :
    ((plan.replace placed).routes vehicle).length = (plan.routes vehicle).length := by
  rw [routes_replace, replaceRoutes_of_settled _ fun position route =>
    settled_eq_resettled keeps ⟨vehicle, position⟩ route, List.length_mapIdx]

/-- Where one slot is given anew its vehicle has one route less just if the route is dropped. -/
theorem length_routes_replace_singleton {plan : Plan} {slot : Slot}
    (inside : slot.position < (plan.routes slot.vehicle).length) (outcome : Option Route)
    (vehicle : Vehicle) :
    ((plan.replace [(slot, outcome)]).routes vehicle).length +
      (if vehicle = slot.vehicle ∧ outcome = none then 1 else 0) =
        (plan.routes vehicle).length := by
  rw [routes_replace]
  by_cases same : vehicle = slot.vehicle
  · subst same
    cases outcome with
    | none =>
      rw [replaceRoutes_none, List.length_eraseIdx_of_lt inside, if_pos ⟨rfl, rfl⟩]
      omega
    | some route => simp [replaceRoutes_some]
  · rw [replaceRoutes_of_not_listed (by simpa using Ne.symm same), if_neg fun both => same both.1]
    rfl

/-- Replacements of different slots, the first of which drops none, come to one. -/
theorem replace_replace {first second : List (Slot × Option Route)} (keeps : Keeps first)
    (apart : ∀ entry ∈ first, entry.1 ∉ second.map Prod.fst) (plan : Plan) :
    (plan.replace first).replace second = plan.replace (first ++ second) := by
  apply eq_of_routes (by simp) (by simp)
  intro vehicle
  rw [routes_replace, routes_replace, routes_replace,
    replaceRoutes_of_settled _ fun position route =>
      settled_eq_resettled keeps ⟨vehicle, position⟩ route, replaceRoutes, List.mapIdx_mapIdx]
  congr 2
  funext position route
  change settled second ⟨vehicle, position⟩ (resettled first ⟨vehicle, position⟩ route) = _
  unfold settled
  rw [List.lookup_append]
  cases listed : first.lookup ⟨vehicle, position⟩ with
  | none => simp [resettled, settled, listed]
  | some outcome =>
    obtain ⟨before, after, split, -⟩ := List.lookup_eq_some_iff.1 listed
    have member : (⟨vehicle, position⟩, outcome) ∈ first := by simp [split]
    have later := settled_of_not_listed (apart _ member) (resettled first ⟨vehicle, position⟩ route)
    have now := settled_eq_resettled keeps ⟨vehicle, position⟩ route
    unfold settled at later now
    rw [later, ← now, listed]
    rfl

end TruckDrone.Plan
