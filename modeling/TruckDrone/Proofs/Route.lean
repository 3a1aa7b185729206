import TruckDrone.Route
import TruckDrone.Proofs.Plan.Replacement
import TruckDrone.Proofs.Sequence

/-! Routes from pieces of other routes, and from the same pieces turned round. -/

set_option autoImplicit false

namespace TruckDrone.Route

theorem ne_depot {route : Route} {id : Nat} (member : id ∈ route.body) : id ≠ depotId :=
  fun same => route.depotFree (same ▸ member)

theorem ext_iff_body {first second : Route} :
    first = second ↔ first.kind = second.kind ∧ first.body = second.body := by
  constructor
  · rintro rfl
    exact ⟨rfl, rfl⟩
  · rintro ⟨kind, body⟩
    cases first
    cases second
    cases kind
    cases body
    rfl

theorem ext_stops {first second : Route} (kind : first.kind = second.kind)
    (stops : first.stops = second.stops) : first = second := by
  rw [Route.stops, Route.stops] at stops
  exact ext_iff_body.2 ⟨kind, (List.cons.inj (List.append_cancel_right stops)).2⟩

theorem body_ofIds_of_served {kind : VehicleKind} {ids : List Nat}
    (served : ∀ id ∈ ids, id ≠ depotId) : (ofIds kind ids).body = ids := by
  rw [body_ofIds, List.filter_eq_self]
  simpa using served

/-- A route is made from the ids between two depots as from the ids alone. -/
theorem ofIds_bounded (kind : VehicleKind) (ids : List Nat) :
    ofIds kind (depotId :: ids ++ [depotId]) = ofIds kind ids := by
  rw [ext_iff_body]
  simp [List.filter_append]

theorem ofIds_stops {kind : VehicleKind} {route : Route} (same : route.kind = kind) :
    ofIds kind route.stops = route :=
  ext_iff_body.2 ⟨same.symm, body_ofIds_stops kind route⟩

theorem upTo_stops {route : Route} {i : Nat} (inside : i ≤ route.size) :
    Sequence.upTo route.stops i = .ok (depotId :: route.body.take i) := by
  have bound : i < route.stops.length := by
    rw [length_stops]
    omega
  rw [Sequence.upTo_eq_ok bound, stops, List.cons_append, List.take_succ_cons,
    List.take_append_of_le_length inside]

theorem beyond_stops {route : Route} {i : Nat} (inside : i ≤ route.size) :
    Sequence.beyond route.stops i = .ok (route.body.drop i ++ [depotId]) := by
  have bound : i < route.stops.length := by
    rw [length_stops]
    omega
  rw [Sequence.beyond_eq_ok bound, stops, List.cons_append, List.drop_succ_cons,
    List.drop_append_of_le_length inside]

theorem getElem?_stops {route : Route} {i : Nat} (inside : i < route.size) :
    route.stops[i + 1]? = route.body[i]? := by
  rw [stops, List.cons_append, List.getElem?_cons_succ, List.getElem?_append_left inside]

theorem getElem?_stops_of_pos {route : Route} {position : Nat} (starts : 1 ≤ position)
    (ends : position ≤ route.size) : route.stops[position]? = route.body[position - 1]? := by
  rw [← getElem?_stops (by omega), Nat.sub_add_cancel starts]

theorem inside_of_reverse {route turned : Route} {start length : Nat}
    (done : route.reverse start length = .ok turned) :
    1 ≤ start ∧ start + length < route.stops.length := by
  by_contra outside
  rw [reverse, if_neg outside] at done
  cases done

theorem body_of_reverse {route turned : Route} {start length : Nat}
    (done : route.reverse start length = .ok turned) :
    turned.body = Sequence.reverseSegment route.body (start - 1) length := by
  unfold reverse at done
  split at done
  · cases done
    rfl
  · cases done

theorem stops_of_reverse {route turned : Route} {start length : Nat}
    (done : route.reverse start length = .ok turned) :
    turned.stops = Sequence.reverseSegment route.stops start length := by
  have inside := inside_of_reverse done
  have bounded : start - 1 + length ≤ route.body.length := by
    rw [length_stops, size] at inside
    omega
  obtain ⟨position, rfl⟩ : ∃ position, start = position + 1 :=
    Nat.exists_eq_add_of_le' inside.1
  rw [stops, body_of_reverse done, stops]
  exact (Sequence.reverseSegment_cons_append depotId depotId route.body bounded).symm

end TruckDrone.Route

namespace TruckDrone.Plan

theorem assigned_of_ne_nil {vehicle : Vehicle} {ids : List Nat} (someone : ids ≠ [])
    (served : ∀ id ∈ ids, id ≠ depotId) :
    assigned vehicle (depotId :: ids ++ [depotId]) = some (Route.ofIds vehicle.kind ids) := by
  have full : (Route.ofIds vehicle.kind ids).isEmpty = false := by
    rw [Route.isEmpty, Route.body_ofIds_of_served served]
    simpa using someone
  rw [assigned, Route.ofIds_bounded, full]
  rfl

theorem assign_eq_replace_some {plan : Plan} {slot : Slot} {old : Route}
    (occupied : plan.occupant? slot = some old) {ids : List Nat} (someone : ids ≠ [])
    (served : ∀ id ∈ ids, id ≠ depotId) :
    plan.assign slot (depotId :: ids ++ [depotId]) =
      .ok (plan.replace [(slot, some (Route.ofIds slot.vehicle.kind ids))]) := by
  rw [assign_eq_replace occupied, assigned_of_ne_nil someone served]

end TruckDrone.Plan
