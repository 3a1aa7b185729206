import TruckDrone.Json.Model
import TruckDrone.Proofs.Json.Document
import TruckDrone.Proofs.Json.Ensures
import TruckDrone.Proofs.Route

/-! Routes and their JSON text. A text lists a kind and some stops, and holds a route if these
begin and end at the depot; the text of that route lists the same stops without the depots between
them, and is read as the same route again. -/

set_option autoImplicit false

namespace TruckDrone

open Json Json.Reader

theorem VehicleKind.reads_kind (kind : VehicleKind) :
    Reads reader kind.toDocument (.ok kind) := by
  intro layout depth
  rw [toDocument, Document.write]
  exact takes_variant (by rw [ofName?_name]; rfl)

namespace Route

/-- The kind and the stops that a text lists, whether they make a route or not. -/
def listing : Reader (VehicleKind × List Nat) :=
  record fields {} fun draft => return (← draft.kind, ← draft.stops)

def document (kind : VehicleKind) (stops : List Nat) : Document := .record [
  ("kind", kind.toDocument),
  ("customers", .list (stops.map .natural))]

theorem toDocument_eq (route : Route) : route.toDocument = document route.kind route.stops := rfl

/-! What a text lists. -/

theorem reads_listing (kind : VehicleKind) {stops : List Nat}
    (sized : ∀ id ∈ stops, id < UInt64.size) :
    Reads listing (document kind stops) (.ok (kind, stops)) := by
  have ids : Reads (list natural) (.list (stops.map .natural)) (.ok stops) :=
    reads_list fun id member => reads_natural (sized id member)
  intro layout depth
  rw [document, Document.write]
  apply takes_record
  · apply gathers_field rfl rfl (kind.reads_kind.map _)
    exact gathers_field rfl rfl (ids.map _) .done
  · rfl

def Draft.Sized (draft : Draft) : Prop := ∀ stops ∈ draft.stops, ∀ id ∈ stops, id < UInt64.size

theorem ensures_fill : ∀ field ∈ fields, ∀ draft : Draft, draft.Sized →
    (field.fill draft).Ensures Draft.Sized := by
  refine List.forall_mem_cons.2 ⟨fun draft sized => ?kind, List.forall_mem_singleton.2 ?stops⟩
  case kind => exact (ensures_any VehicleKind.reader).map fun _ _ => sized
  case stops =>
    intro draft _
    refine ensures_natural.list.map fun read fits => ?_
    rintro stops ⟨⟩
    exact fits

theorem ensures_listing : listing.Ensures fun listed => ∀ id ∈ listed.2, id < UInt64.size := by
  have empty : Draft.Sized {} := by
    rintro stops ⟨⟩
  refine ensures_record ensures_fill empty ?_
  rintro ⟨_ | kind, _ | stops⟩ listed sized finished <;> cases finished
  exact sized stops rfl

/-! The route of the stops. -/

def Bounded (stops : List Nat) : Prop :=
  2 ≤ stops.length ∧ stops.head? = some depotId ∧ stops.getLast? = some depotId

instance (stops : List Nat) : Decidable (Bounded stops) := inferInstanceAs (Decidable (_ ∧ _))

theorem ofStops?_eq_some {kind : VehicleKind} {stops : List Nat} {route : Route} :
    ofStops? kind stops = some route ↔ Bounded stops ∧ ofIds kind stops = route := by
  unfold ofStops? Bounded
  split <;> simp [*]

theorem ofStops?_eq_none {kind : VehicleKind} {stops : List Nat} :
    ofStops? kind stops = none ↔ ¬ Bounded stops := by
  unfold ofStops? Bounded
  split <;> simp [*]

theorem bounded_stops (route : Route) : Bounded route.stops := by
  refine ⟨?_, rfl, ?_⟩
  · rw [length_stops]
    omega
  · rw [stops, List.getLast?_concat]

/-! Whole texts. -/

theorem reader_eq_bind : reader = listing >>= fun listed =>
    (ofStops? listed.1 listed.2).elim (refuse (.unbounded listed.2)) pure := by
  unfold reader
  refine congrArg (listing >>= ·) (funext fun listed => ?_)
  dsimp only
  cases ofStops? listed.1 listed.2 <;> rfl

theorem run_reader (text : List Char) : reader.run text =
    match listing.run text with
    | .error refusal => .error refusal
    | .ok (listed, rest) =>
      (ofStops? listed.1 listed.2).elim (.error (.unbounded listed.2)) fun route =>
        .ok (route, rest) := by
  rw [reader_eq_bind, run_bind]
  cases listing.run text with
  | error refusal => rfl
  | ok taken =>
    dsimp only
    cases ofStops? taken.1.1 taken.1.2 <;> rfl

theorem whole_of_listed {text : String} {kind : VehicleKind} {stops : List Nat}
    (listed : whole listing text = .ok (kind, stops)) :
    whole reader text = (ofStops? kind stops).elim (.error (.unbounded stops)) .ok := by
  obtain ⟨rest, taken, blank⟩ := whole_eq_ok.1 listed
  rw [run_whole, run_reader, taken]
  dsimp only
  cases ofStops? kind stops with
  | none => rfl
  | some route => exact if_pos blank

theorem exists_listed {text : String} {route : Route} (read : whole reader text = .ok route) :
    ∃ kind stops, whole listing text = .ok (kind, stops) ∧ ofStops? kind stops = some route := by
  obtain ⟨rest, taken, blank⟩ := whole_eq_ok.1 read
  rw [run_reader] at taken
  cases listed : listing.run text.toList with
  | error refusal => simp [listed] at taken
  | ok answer =>
    obtain ⟨⟨kind, stops⟩, left⟩ := answer
    simp only [listed] at taken
    cases made : ofStops? kind stops with
    | none => simp [made] at taken
    | some found =>
      rw [made] at taken
      cases taken
      exact ⟨kind, stops, whole_eq_ok.2 ⟨rest, listed, blank⟩, made⟩

variable {text : String} {kind : VehicleKind} {stops : List Nat} {route : Route}

theorem whole_eq_ok_of_listed (listed : whole listing text = .ok (kind, stops)) :
    whole reader text = .ok route ↔ Bounded stops ∧ ofIds kind stops = route := by
  rw [whole_of_listed listed, ← ofStops?_eq_some]
  cases ofStops? kind stops <;> simp

theorem whole_eq_unbounded_of_listed (listed : whole listing text = .ok (kind, stops)) :
    whole reader text = .error (.unbounded stops) ↔ ¬ Bounded stops := by
  rw [whole_of_listed listed, ← ofStops?_eq_none]
  cases ofStops? kind stops <;> simp

theorem whole_toText (sized : ∀ id ∈ route.body, id < UInt64.size) (layout : Layout) :
    whole reader (route.toDocument.toText layout) = .ok route := by
  have depot : depotId < UInt64.size := by decide
  have closing := List.forall_mem_append.2 ⟨sized, List.forall_mem_singleton.2 depot⟩
  have stops : ∀ id ∈ route.stops, id < UInt64.size := List.forall_mem_cons.2 ⟨depot, closing⟩
  have listed := (reads_listing route.kind stops).whole_eq layout
  rw [toDocument_eq]
  exact (whole_eq_ok_of_listed listed).2 ⟨route.bounded_stops, ofIds_stops rfl⟩

theorem sized_of_whole (read : whole reader text = .ok route) :
    ∀ id ∈ route.body, id < UInt64.size := by
  obtain ⟨kind, stops, listed, made⟩ := exists_listed read
  obtain ⟨-, rfl⟩ := ofStops?_eq_some.1 made
  intro id member
  exact ensures_listing.whole listed id (List.mem_of_mem_filter member)

end Route

/-- A route is read back from its text, in either layout. Every kind can be listed with any ids;
what a text lists is a route just if it begins and ends at the depot, at two entries, and the
route is of that kind and serves the ids in between that are not the depot. Its own text is read
as the same route again, and two texts hold the same route just if they list the same kind and
the same ids apart from depots. -/
theorem Route.reading_canonical :
    (∀ (route : Route) (layout : Layout), (∀ id ∈ route.body, id < UInt64.size) →
      whole reader (route.toDocument.toText layout) = .ok route) ∧
    (∀ (kind : VehicleKind) (stops : List Nat) (layout : Layout),
      (∀ id ∈ stops, id < UInt64.size) →
        whole listing ((document kind stops).toText layout) = .ok (kind, stops)) ∧
    (∀ (text : String) (kind : VehicleKind) (stops : List Nat),
      whole listing text = .ok (kind, stops) →
        ((∃ route, whole reader text = .ok route) ↔ Bounded stops) ∧
        (whole reader text = .error (.unbounded stops) ↔ ¬ Bounded stops) ∧
        ∀ route, whole reader text = .ok route →
          route.kind = kind ∧ route.body = stops.filter (· ≠ depotId)) ∧
    (∀ (text : String) (route : Route), whole reader text = .ok route →
      (∃ kind stops, whole listing text = .ok (kind, stops)) ∧
      ∀ layout, whole reader (route.toDocument.toText layout) = .ok route) ∧
    (∀ (first second : String) (kind other : VehicleKind) (stops others : List Nat)
      (route twin : Route),
      whole listing first = .ok (kind, stops) → whole listing second = .ok (other, others) →
        whole reader first = .ok route → whole reader second = .ok twin →
          (route = twin ↔
            kind = other ∧ stops.filter (· ≠ depotId) = others.filter (· ≠ depotId))) := by
  refine ⟨fun route layout sized => whole_toText sized layout,
    fun kind stops layout sized => (reads_listing kind sized).whole_eq layout, ?_, ?_, ?_⟩
  · intro text kind stops listed
    refine ⟨⟨?_, ?_⟩, whole_eq_unbounded_of_listed listed, ?_⟩
    · rintro ⟨route, read⟩
      exact ((whole_eq_ok_of_listed listed).1 read).1
    · exact fun bounded => ⟨_, (whole_eq_ok_of_listed listed).2 ⟨bounded, rfl⟩⟩
    · intro route read
      obtain ⟨-, rfl⟩ := (whole_eq_ok_of_listed listed).1 read
      exact ⟨rfl, rfl⟩
  · intro text route read
    obtain ⟨kind, stops, listed, -⟩ := exists_listed read
    exact ⟨⟨kind, stops, listed⟩, whole_toText (sized_of_whole read)⟩
  · intro first second kind other stops others route twin listed listed' read read'
    obtain ⟨-, rfl⟩ := (whole_eq_ok_of_listed listed).1 read
    obtain ⟨-, rfl⟩ := (whole_eq_ok_of_listed listed').1 read'
    rw [ext_iff_body]
    rfl

/-- An object with its fields the other way round and an unknown one between them, the greatest id
and depots in a row; a list of the same route; and a single depot, which is no route. -/
theorem Route.reading_canonical_reordered :
    let object :=
      "\x7b\"customers\":[0,0,18446744073709551615,0,5,0],\"at\":[1.5],\"kind\":\"Drone\"\x7d"
    let list := "[\"Drone\",[0,18446744073709551615,5,0]]"
    let single := "[\"Truck\",[0]]"
    let route := drone [18446744073709551615, 5]
    whole listing object = .ok (.drone, [0, 0, 18446744073709551615, 0, 5, 0]) ∧
      whole listing list = .ok (.drone, [0, 18446744073709551615, 5, 0]) ∧
      whole listing single = .ok (.truck, [0]) ∧
      whole reader object = .ok route ∧ whole reader list = .ok route ∧
      whole reader single = .error (.unbounded [0]) ∧
      whole reader (route.toDocument.toText .compact) = .ok route ∧
      whole reader (route.toDocument.toText .indented) = .ok route ∧
      ∀ layout, whole listing ((document .truck [18446744073709551615]).toText layout) =
        .ok (.truck, [18446744073709551615]) := by
  intro object list single route
  have reordered : whole listing object = .ok (.drone, [0, 0, 18446744073709551615, 0, 5, 0]) := by
    decide +kernel
  have listed : whole listing list = .ok (.drone, [0, 18446744073709551615, 5, 0]) := by
    decide +kernel
  have alone : whole listing single = .ok (.truck, [0]) := by decide +kernel
  obtain ⟨back, documents, readings, again, same⟩ := reading_canonical
  obtain ⟨⟨-, accepted⟩, -, shape⟩ := readings object _ _ reordered
  obtain ⟨⟨-, acceptedList⟩, -, -⟩ := readings list _ _ listed
  obtain ⟨-, refused, -⟩ := readings single _ _ alone
  obtain ⟨found, read⟩ := accepted (by decide)
  obtain ⟨twin, readList⟩ := acceptedList (by decide)
  obtain rfl : found = route := ext_iff_body.2 (shape found read)
  obtain rfl := (same _ _ _ _ _ _ _ _ reordered listed read readList).2 (by decide)
  exact ⟨reordered, listed, alone, read, readList, refused.2 (by decide),
    back route .compact (by decide), (again object route read).2 .indented,
    fun layout => documents .truck [18446744073709551615] layout (by decide)⟩

end TruckDrone
