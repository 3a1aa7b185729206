import TruckDrone.Proofs.Json.Route

/-! Routes under any attempts to reverse a segment of their stops. The places of a segment change
in pairs, so one that was reversed is put back by the same call; one that meets a depot is refused.
Either way the route keeps its kind, its depots at both ends and the ids that it serves. -/

set_option autoImplicit false

namespace TruckDrone.Route

open Json Json.Reader

/-! One call. -/

def turnedAt (start length position : Nat) : Nat :=
  if start ≤ position ∧ position < start + length then 2 * start + length - 1 - position
  else position

theorem turnedAt_turnedAt (start length position : Nat) :
    turnedAt start length (turnedAt start length position) = position := by
  unfold turnedAt
  split
  next inside =>
    rw [if_pos (by omega)]
    omega
  next => rfl

section Reverse

variable {route turned : Route} {start length : Nat}

theorem reverse_eq_error {fault : Fault} : route.reverse start length = .error fault ↔
    (start = 0 ∨ route.stops.length ≤ start + length) ∧
      .overlap start length route.stops.length = fault := by
  unfold reverse
  split
  next inside =>
    constructor
    · intro refused
      cases refused
    · rintro ⟨outside, -⟩
      omega
  next outside =>
    rw [Except.error.injEq]
    exact (and_iff_right (by omega)).symm

theorem exists_reverse_eq_error : (∃ fault, route.reverse start length = .error fault) ↔
    start = 0 ∨ route.stops.length ≤ start + length := by
  simp only [reverse_eq_error, exists_and_left, exists_eq', and_true]

theorem kind_of_reverse (done : route.reverse start length = .ok turned) :
    turned.kind = route.kind := by
  rw [reverse, if_pos (inside_of_reverse done)] at done
  cases done
  rfl

theorem body_perm_of_reverse (done : route.reverse start length = .ok turned) :
    turned.body.Perm route.body := by
  rw [body_of_reverse done]
  exact Sequence.reverseSegment_perm ..

theorem length_stops_of_reverse (done : route.reverse start length = .ok turned) :
    turned.stops.length = route.stops.length := by
  rw [length_stops, length_stops, size, size, (body_perm_of_reverse done).length_eq]

theorem getElem?_stops_of_reverse (done : route.reverse start length = .ok turned)
    (position : Nat) :
    turned.stops[position]? = route.stops[turnedAt start length position]? := by
  obtain ⟨-, inside⟩ := inside_of_reverse done
  rw [stops_of_reverse done, Sequence.getElem?_reverseSegment (by omega), turnedAt]
  split
  · congr 1
    omega
  · rfl

theorem reverse_of_reverse (done : route.reverse start length = .ok turned) :
    turned.reverse start length = .ok route := by
  have again : ∃ back, turned.reverse start length = .ok back := by
    rw [reverse, length_stops_of_reverse done, if_pos (inside_of_reverse done)]
    exact ⟨_, rfl⟩
  obtain ⟨back, again⟩ := again
  -- Turned twice, every stop is where it was.
  have kind := (kind_of_reverse again).trans (kind_of_reverse done)
  rw [again, ext_stops kind (List.ext_getElem? fun position => ?_)]
  rw [getElem?_stops_of_reverse again, getElem?_stops_of_reverse done, turnedAt_turnedAt]

end Reverse

/-! Runs of attempts. -/

structure Segment where
  start : Nat
  length : Nat
  deriving DecidableEq, Repr

def attempt (route : Route) (segment : Segment) : Route :=
  match route.reverse segment.start segment.length with
  | .ok turned => turned
  | .error _ => route

def afterAttempts (route : Route) (segments : List Segment) : Route := segments.foldl attempt route

theorem attempt_of_refused {route : Route} {segment : Segment} {fault : Fault}
    (refused : route.reverse segment.start segment.length = .error fault) :
    route.attempt segment = route := by
  rw [attempt, refused]

structure Rearranges (route now : Route) : Prop where
  kind : now.kind = route.kind
  body : now.body.Perm route.body

theorem Rearranges.trans {route next now : Route} (first : route.Rearranges next)
    (second : next.Rearranges now) : route.Rearranges now :=
  ⟨second.kind.trans first.kind, second.body.trans first.body⟩

theorem rearranges_attempt (route : Route) (segment : Segment) :
    route.Rearranges (route.attempt segment) := by
  cases done : route.reverse segment.start segment.length with
  | error fault =>
    rw [attempt_of_refused done]
    exact ⟨rfl, .refl _⟩
  | ok turned =>
    rw [attempt, done]
    exact ⟨kind_of_reverse done, body_perm_of_reverse done⟩

theorem rearranges_afterAttempts (route : Route) (segments : List Segment) :
    route.Rearranges (route.afterAttempts segments) := by
  induction segments generalizing route with
  | nil => exact ⟨rfl, .refl _⟩
  | cons first later ih => exact (rearranges_attempt route first).trans (ih (route.attempt first))

/-! Where routes come from. -/

inductive Made : VehicleKind → List Nat → Route → Prop where
  | ofIds (kind : VehicleKind) (ids : List Nat) : Made kind ids (Route.ofIds kind ids)
  | truck (ids : List Nat) : Made .truck ids (Route.truck ids)
  | drone (ids : List Nat) : Made .drone ids (Route.drone ids)
  | read {text : String} {kind : VehicleKind} {ids : List Nat} {route : Route} :
    whole listing text = .ok (kind, ids) → whole reader text = .ok route → Made kind ids route

theorem Made.eq_ofIds {kind : VehicleKind} {ids : List Nat} {route : Route}
    (made : Made kind ids route) : route = Route.ofIds kind ids := by
  cases made with
  | ofIds | truck | drone => rfl
  | read listed read => exact ((whole_eq_ok_of_listed listed).1 read).2.symm

theorem ne_depot_of_inner {route : Route} {position : Nat} (early : 0 < position)
    (late : position + 1 < route.stops.length) : route.stops[position]? ≠ some depotId := by
  obtain ⟨inner, rfl⟩ := Nat.exists_eq_add_of_le' early
  rw [length_stops] at late
  rw [getElem?_stops (by omega)]
  exact fun depot => ne_depot (List.mem_of_getElem? depot) rfl

/-- However a route was made and whatever reversals were attempted on it, it has at least two
stops, the first and the last of them the depot and none in between, and the kind and the ids that
it was made from, apart from depots. A reversal is refused just if its segment starts at the first
stop or reaches the last one, and then changes nothing. Otherwise the stops of the segment change
places, the others stay, and the same call again brings the route back. -/
theorem attempts_rearrange {kind : VehicleKind} {ids : List Nat} {route : Route}
    (made : Made kind ids route) (attempts : List Segment) (start length : Nat) :
    let now := route.afterAttempts attempts
    2 ≤ now.stops.length ∧ now.stops.head? = some depotId ∧ now.stops.getLast? = some depotId ∧
    (∀ position, 0 < position → position + 1 < now.stops.length →
      now.stops[position]? ≠ some depotId) ∧
    now.kind = kind ∧ now.body.Perm (ids.filter (· ≠ depotId)) ∧
    ((∃ fault, now.reverse start length = .error fault) ↔
      start = 0 ∨ now.stops.length ≤ start + length) ∧
    (∀ fault, now.reverse start length = .error fault →
      fault = .overlap start length now.stops.length ∧ now.attempt ⟨start, length⟩ = now) ∧
    ∀ turned, now.reverse start length = .ok turned →
      turned.stops.length = now.stops.length ∧
      (∀ position, start ≤ position → position < start + length →
        turned.stops[2 * start + length - 1 - position]? = now.stops[position]?) ∧
      (∀ position, position < start ∨ start + length ≤ position →
        turned.stops[position]? = now.stops[position]?) ∧
      turned.reverse start length = .ok now := by
  obtain rfl := made.eq_ofIds
  intro now
  obtain ⟨sameKind, sameIds⟩ := rearranges_afterAttempts (ofIds kind ids) attempts
  obtain ⟨two, first, last⟩ := bounded_stops now
  refine ⟨two, first, last, fun position => ne_depot_of_inner, sameKind, sameIds,
    exists_reverse_eq_error, fun fault refused => ?refused, fun turned done => ?done⟩
  case refused => exact ⟨(reverse_eq_error.1 refused).2.symm, attempt_of_refused refused⟩
  case done =>
    have moved := getElem?_stops_of_reverse done
    refine ⟨length_stops_of_reverse done, fun position early late => ?_, fun position outside => ?_,
      reverse_of_reverse done⟩
    · have turned : turnedAt start length position = 2 * start + length - 1 - position :=
        if_pos ⟨early, late⟩
      rw [← turned, moved, turnedAt_turnedAt]
    · rw [moved, turnedAt, if_neg (by omega)]

/-- A route that was read, with a depot in the middle. Its first stop and its last one cannot be
reversed, three stops before the last one can. -/
theorem attempts_rearrange_read :
    let text := "[\"Drone\",[0,7,0,3,8,5,0]]"
    let route := drone [7, 3, 8, 5]
    let now := route.afterAttempts [⟨0, 1⟩, ⟨1, 2⟩, ⟨2, 4⟩]
    whole listing text = .ok (.drone, [0, 7, 0, 3, 8, 5, 0]) ∧ whole reader text = .ok route ∧
      now = drone [3, 7, 8, 5] ∧ now.kind = .drone ∧ now.body.Perm [7, 3, 8, 5] ∧
      (∃ fault, now.reverse 2 4 = .error fault) ∧
      now.reverse 2 3 = .ok (drone [3, 5, 8, 7]) ∧ (drone [3, 5, 8, 7]).reverse 2 3 = .ok now := by
  intro text route now
  have listed : whole listing text = .ok (.drone, [0, 7, 0, 3, 8, 5, 0]) := by decide +kernel
  have read : whole reader text = .ok route :=
    (whole_eq_ok_of_listed listed).2 ⟨by decide, by decide⟩
  have run := attempts_rearrange (.read listed read) [⟨0, 1⟩, ⟨1, 2⟩, ⟨2, 4⟩]
  obtain ⟨-, -, -, -, kind, ids, refused, -⟩ := run 2 4
  obtain ⟨-, -, -, -, -, -, -, -, done⟩ := run 2 3
  obtain ⟨-, -, -, back⟩ := done (drone [3, 5, 8, 7]) (by decide)
  exact ⟨listed, read, by decide, kind, ids, refused.2 (.inr (by decide)), by decide, back⟩

end TruckDrone.Route
