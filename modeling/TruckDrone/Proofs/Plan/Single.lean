import TruckDrone.Proofs.Violation.Feasible

/-! Where a customer is. A plan that serves a problem has each of its customers on one route, and
there at one position, so a stop that is not the depot tells both. -/

set_option autoImplicit false

namespace TruckDrone

namespace Route

variable {route : Route} {position other id : Nat}

theorem exists_customer (stop : route.stops[position]? = some id) (served : id ≠ depotId) :
    ∃ k, position = k + 1 ∧ route.body[k]? = some id := by
  cases position with
  | zero => exact absurd (Option.some.inj stop).symm served
  | succ k =>
    rw [stops, List.cons_append, List.getElem?_cons_succ] at stop
    rcases Nat.lt_or_ge k route.body.length with inside | beyond
    · rw [List.getElem?_append_left inside] at stop
      exact ⟨k, rfl, stop⟩
    · rw [List.getElem?_append_right beyond] at stop
      exact absurd (List.mem_singleton.1 (List.mem_of_getElem? stop)) served

theorem stop_unique (distinct : route.body.Nodup) (served : id ≠ depotId)
    (here : route.stops[position]? = some id) (there : route.stops[other]? = some id) :
    position = other := by
  obtain ⟨k, rfl, first⟩ := exists_customer here served
  obtain ⟨l, rfl, second⟩ := exists_customer there served
  have inside := (List.getElem?_eq_some_iff.1 first).1
  rw [(List.getElem?_inj inside distinct).1 (first.trans second.symm)]

theorem exists_stop (starts : 1 ≤ position) (ends : position ≤ route.size) :
    ∃ id ∈ route.body, route.stops[position]? = some id := by
  obtain ⟨k, rfl⟩ := Nat.exists_eq_add_of_le' starts
  exact ⟨_, List.getElem_mem ends, (getElem?_stops ends).trans (List.getElem?_eq_getElem ends)⟩

theorem position_unique (distinct : route.body.Nodup) (starts : 1 ≤ position)
    (ends : position ≤ route.size) (same : route.stops[position]? = route.stops[other]?) :
    position = other := by
  obtain ⟨id, member, stop⟩ := exists_stop starts ends
  exact stop_unique distinct (ne_depot member) stop (same ▸ stop)

end Route

namespace Plan.Serves

variable {K : Type} {problem : Problem K} {plan : Plan} {slot other : Slot} {route second : Route}

theorem held (serves : plan.Serves problem) (occupied : plan.occupant? slot = some route) :
    (slot, route) ∈ Violation.held problem plan :=
  Violation.mem_held.2 ⟨serves.mem_fleet (mem_routes_of_occupant? occupied), occupied⟩

theorem nodup_body (serves : plan.Serves problem) (occupied : plan.occupant? slot = some route) :
    route.body.Nodup :=
  (List.nodup_flatMap.1 serves.nodup_visits).1 _ (serves.held occupied)

theorem slot_unique (serves : plan.Serves problem) (here : plan.occupant? slot = some route)
    (there : plan.occupant? other = some second) {id : Nat} (first : id ∈ route.body)
    (again : id ∈ second.body) : slot = other := by
  by_contra apart
  have disjoint := (List.nodup_flatMap.1 serves.nodup_visits).2
  have symmetric : Std.Symm (Function.onFun List.Disjoint fun entry : Slot × Route =>
      entry.2.body) := ⟨fun _ _ => List.Disjoint.symm⟩
  have different : (slot, route) ≠ (other, second) := fun same => apart (congrArg Prod.fst same)
  exact disjoint.forall (serves.held here) (serves.held there) different first again

end Plan.Serves

end TruckDrone
