import TruckDrone.Proofs.Neighborhood.Conservation
import TruckDrone.Proofs.Neighborhood.Symmetry
import TruckDrone.Proofs.Plan.Single

/-! Which edges are travelled before a two-opt move and after it. A move makes two cuts, and the
edge it is offered with joins one stop of the first to one of the second. So that edge is none of
those that the move breaks. -/

set_option autoImplicit false

namespace TruckDrone

def Route.edges (route : Route) : List Edge :=
  List.zipWith Edge.between route.stops route.stops.tail

def Plan.Travels (plan : Plan) (edge : Edge) : Prop := ∃ route ∈ plan.allRoutes, edge ∈ route.edges

instance (plan : Plan) (edge : Edge) : Decidable (plan.Travels edge) :=
  inferInstanceAs (Decidable (∃ route ∈ plan.allRoutes, edge ∈ route.edges))

def Edge.Broken (before after : Plan) (edge : Edge) : Prop :=
  before.Travels edge ∧ ¬ after.Travels edge

theorem Edge.between_eq_between {a b c d : Nat} :
    between a b = between c d ↔ (a = c ∧ b = d) ∨ (a = d ∧ b = c) := by
  simp only [between, mk.injEq]
  omega

namespace Route

variable {route : Route}

theorem mem_edges {edge : Edge} : edge ∈ route.edges ↔ ∃ position start finish,
    route.stops[position]? = some start ∧ route.stops[position + 1]? = some finish ∧
      .between start finish = edge := by
  rw [edges, List.mem_iff_getElem?]
  simp only [List.getElem?_zipWith_eq_some, List.getElem?_tail]

theorem mem_body_of_mem_edges {customer other : Nat} (served : customer ≠ depotId)
    (edge : .between customer other ∈ route.edges) : customer ∈ route.body := by
  obtain ⟨position, start, finish, here, next, same⟩ := mem_edges.1 edge
  have stop : ∃ place : Nat, route.stops[place]? = some customer := by
    rcases Edge.between_eq_between.1 same with ⟨rfl, -⟩ | ⟨-, rfl⟩
    · exact ⟨position, here⟩
    · exact ⟨position + 1, next⟩
  obtain ⟨place, stands⟩ := stop
  obtain ⟨_, -, present⟩ := exists_customer stands served
  exact List.mem_of_getElem? present

theorem eq_of_depot {position : Nat} (stop : route.stops[position]? = some depotId) :
    position = 0 ∨ position = route.size + 1 := by
  by_contra inner
  have bound := (List.getElem?_eq_some_iff.1 stop).1
  rw [length_stops] at bound
  have starts : 1 ≤ position := by omega
  have ends : position ≤ route.size := by omega
  obtain ⟨id, member, found⟩ := exists_stop starts ends
  exact ne_depot member (Option.some.inj (found.symm.trans stop))

/-- Only the depot stands at two places, the two ends. -/
theorem eq_of_same_stop (distinct : route.body.Nodup) {position other id : Nat}
    (here : route.stops[position]? = some id) (there : route.stops[other]? = some id) :
    position = other ∨ (position = 0 ∧ other = route.size + 1) ∨
      (position = route.size + 1 ∧ other = 0) := by
  by_cases depot : id = depotId
  · subst depot
    have first := eq_of_depot here
    have second := eq_of_depot there
    omega
  · exact .inl (stop_unique distinct depot here there)

/-- Two stops are neighbours if one follows the other, and if both are next to the depot with the
whole route between them. -/
theorem between_mem_edges (distinct : route.body.Nodup) {first last start finish : Nat}
    (ordered : first < last) (front : route.stops[first]? = some start)
    (back : route.stops[last]? = some finish) :
    .between start finish ∈ route.edges ↔ last = first + 1 ∨
      (first = 0 ∧ last = route.size) ∨ (first = 1 ∧ last = route.size + 1) := by
  have bound := (List.getElem?_eq_some_iff.1 back).1
  rw [length_stops] at bound
  have closes : route.stops[route.size + 1]? = some depotId := by
    simp [stops, size]
  constructor
  · intro edge
    obtain ⟨position, a, b, here, next, same⟩ := mem_edges.1 edge
    rcases Edge.between_eq_between.1 same with ⟨rfl, rfl⟩ | ⟨rfl, rfl⟩
    · have early := eq_of_same_stop distinct front here
      have late := eq_of_same_stop distinct back next
      omega
    · have early := eq_of_same_stop distinct front next
      have late := eq_of_same_stop distinct back here
      omega
  · rintro (rfl | ⟨rfl, rfl⟩ | ⟨rfl, rfl⟩)
    · exact mem_edges.2 ⟨_, _, _, front, back, rfl⟩
    · cases front
      exact mem_edges.2 ⟨_, _, _, back, closes, Edge.between_comm ..⟩
    · cases back.symm.trans closes
      exact mem_edges.2 ⟨0, _, _, rfl, front, Edge.between_comm ..⟩

end Route

variable {K : Type} {problem : Problem K} {plan : Plan} {offer : Offer K}

namespace Plan

variable {slot other : Slot} {route second : Route}

theorem travels_of_stops (occupied : plan.occupant? slot = some route) {position start finish : Nat}
    (here : route.stops[position]? = some start) (next : route.stops[position + 1]? = some finish) :
    plan.Travels (.between start finish) :=
  ⟨route, mem_allRoutes occupied, Route.mem_edges.2 ⟨_, _, _, here, next, rfl⟩⟩

theorem Serves.travels_iff (serves : plan.Serves problem)
    (occupied : plan.occupant? slot = some route) {customer stop : Nat}
    (member : customer ∈ route.body) :
    plan.Travels (.between customer stop) ↔ .between customer stop ∈ route.edges := by
  constructor
  · rintro ⟨found, listed, edge⟩
    obtain ⟨place, holds⟩ := exists_slot listed
    have visited := Route.mem_body_of_mem_edges (Route.ne_depot member) edge
    cases serves.slot_unique occupied holds member visited
    cases occupied.symm.trans holds
    exact edge
  · exact fun edge => ⟨route, mem_allRoutes occupied, edge⟩

theorem Serves.travels_stops_iff (serves : plan.Serves problem)
    (occupied : plan.occupant? slot = some route) {first last start finish : Nat}
    (ordered : first < last) (inner : 1 ≤ first ∨ last ≤ route.size)
    (front : route.stops[first]? = some start) (back : route.stops[last]? = some finish) :
    plan.Travels (.between start finish) ↔ last = first + 1 ∨
      (first = 0 ∧ last = route.size) ∨ (first = 1 ∧ last = route.size + 1) := by
  have bound := (List.getElem?_eq_some_iff.1 back).1
  rw [Route.length_stops] at bound
  rw [← Route.between_mem_edges (serves.nodup_body occupied) ordered front back]
  -- One of the two is a customer, who is on this route only.
  rcases inner with starts | ends
  · have inside : first ≤ route.size := by omega
    obtain ⟨_, member, stop⟩ := Route.exists_stop starts inside
    cases stop.symm.trans front
    exact serves.travels_iff occupied member
  · have inside : 1 ≤ last := by omega
    obtain ⟨_, member, stop⟩ := Route.exists_stop inside ends
    cases stop.symm.trans back
    rw [Edge.between_comm]
    exact serves.travels_iff occupied member

theorem Serves.not_travels (serves : plan.Serves problem) (apart : slot ≠ other)
    (here : plan.occupant? slot = some route) (there : plan.occupant? other = some second)
    {a b : Nat} (first : a ∈ route.body) (again : b ∈ second.body) :
    ¬ plan.Travels (.between a b) := by
  rw [serves.travels_iff here first, Edge.between_comm]
  intro edge
  have visited := Route.mem_body_of_mem_edges (Route.ne_depot again) edge
  exact apart (serves.slot_unique here there visited again)

end Plan

namespace Reversal

variable {move : Reversal}

/-- All customers of the route are turned, so it goes over the same edges the other way round. -/
def Whole (move : Reversal) (route : Route) : Prop := move.first = 1 ∧ move.last = route.size

theorem Turned.size_eq {before after : Route} (turned : move.Turned plan offer before after) :
    after.size = before.size :=
  (turned.turns.body_perm turned.starts turned.ordered turned.ends).length_eq

theorem Turned.segment_turned {before after : Route}
    (turned : move.Turned plan offer before after) :
    after.stops[move.first]? = before.stops[move.last]? ∧
      after.stops[move.last]? = before.stops[move.first]? := by
  have ordered := turned.ordered.le
  rw [turned.turns.2, turned.turns.2, if_pos ⟨Nat.le_refl _, ordered⟩,
    if_pos ⟨ordered, Nat.le_refl _⟩, Nat.add_sub_cancel_left, Nat.add_sub_cancel]
  exact ⟨rfl, rfl⟩

theorem Turned.outside_kept {before after : Route} (turned : move.Turned plan offer before after)
    {position : Nat} (outside : position < move.first ∨ move.last < position) :
    after.stops[position]? = before.stops[position]? := by
  rw [turned.turns.2, if_neg (by omega)]

/-- The stop before the segment and the last customer of it are joined; the edges at both ends of
the segment are broken. Only a turn of the whole route makes no difference. -/
theorem Turned.travels (serves : plan.Serves problem)
    (servesToo : offer.candidate.plan.Serves problem) {before after : Route}
    (turned : move.Turned plan offer before after) :
    ∃ front first last behind, before.stops[move.first - 1]? = some front ∧
      before.stops[move.first]? = some first ∧ before.stops[move.last]? = some last ∧
      before.stops[move.last + 1]? = some behind ∧ offer.edge = .between front last ∧
      offer.candidate.plan.Travels (.between front last) ∧
      (plan.Travels (.between front last) ↔ move.Whole before) ∧
      ((Edge.between front first).Broken plan offer.candidate.plan ↔ ¬ move.Whole before) ∧
      ((Edge.between last behind).Broken plan offer.candidate.plan ↔ ¬ move.Whole before) := by
  obtain ⟨front, last, atFront, atLast, edge⟩ := turned.edge
  have starts := turned.starts
  have ordered := turned.ordered
  have ends := turned.ends
  have size := turned.size_eq
  obtain ⟨first, -, atFirst⟩ := Route.exists_stop starts (ordered.le.trans ends)
  obtain ⟨behind, atBehind⟩ : ∃ behind, before.stops[move.last + 1]? = some behind :=
    ⟨_, List.getElem?_eq_getElem (by rw [Route.length_stops]; omega)⟩
  obtain ⟨enters, leaves⟩ := turned.segment_turned
  have nowFront := (turned.outside_kept (.inl (Nat.sub_one_lt_of_lt starts))).trans atFront
  have nowBehind := (turned.outside_kept (.inr (Nat.lt_succ_self _))).trans atBehind
  rw [atLast] at enters
  rw [atFirst] at leaves
  have edgeBefore : plan.Travels (.between front last) ↔ move.Whole before := by
    rw [serves.travels_stops_iff turned.held (by omega) (.inr ends) atFront atLast, Whole]
    omega
  have edgeAfter : offer.candidate.plan.Travels (.between front last) :=
    Plan.travels_of_stops turned.now nowFront (by rwa [Nat.sub_add_cancel starts])
  have frontBefore : plan.Travels (.between front first) :=
    Plan.travels_of_stops turned.held atFront (by rwa [Nat.sub_add_cancel starts])
  have frontAfter : offer.candidate.plan.Travels (.between front first) ↔ move.Whole before := by
    rw [servesToo.travels_stops_iff turned.now (by omega) (by omega) nowFront leaves, Whole]
    omega
  have behindBefore : plan.Travels (.between last behind) :=
    Plan.travels_of_stops turned.held atLast atBehind
  have behindAfter : offer.candidate.plan.Travels (.between last behind) ↔ move.Whole before := by
    rw [servesToo.travels_stops_iff turned.now (by omega) (by omega) enters nowBehind, Whole]
    omega
  exact ⟨front, first, last, behind, atFront, atFirst, atLast, atBehind, edge, edgeAfter,
    edgeBefore, by simp only [Edge.Broken, frontBefore, frontAfter, true_and],
    by simp only [Edge.Broken, behindBefore, behindAfter, true_and]⟩

end Reversal

namespace TailExchange

variable {move : TailExchange}

theorem mem_joined_of_head {head tail : Route} {i j id : Nat} (starts : 1 ≤ i)
    (ends : i ≤ head.size) (stop : head.stops[i]? = some id) :
    id ∈ head.body.take i ++ tail.body.drop j := by
  rw [Route.getElem?_stops_of_pos starts ends] at stop
  exact List.mem_of_getElem? ((getElem?_joined starts ends).trans stop)

theorem mem_joined_of_tail {head tail : Route} {i j id : Nat} (inside : j < tail.size)
    (stop : tail.stops[j + 1]? = some id) : id ∈ head.body.take i ++ tail.body.drop j := by
  rw [Route.getElem?_stops inside] at stop
  refine List.mem_append_right _ (List.mem_of_getElem? (i := 0) ?_)
  rw [List.getElem?_drop, Nat.add_zero, stop]

/-- The customers before the cuts are on two routes and stay on two. Each is parted from the one
behind the cut, who changes to the route of the other. -/
theorem Exchanged.travels (serves : plan.Serves problem)
    (servesToo : offer.candidate.plan.Serves problem) {left right newLeft newRight : Route}
    (exchanged : move.Exchanged plan offer left right newLeft newRight) :
    ∃ a next b behind, left.stops[move.leftSplit]? = some a ∧
      left.stops[move.leftSplit + 1]? = some next ∧ right.stops[move.rightSplit]? = some b ∧
      right.stops[move.rightSplit + 1]? = some behind ∧ offer.edge = .between a b ∧
      ¬ plan.Travels (.between a b) ∧ ¬ offer.candidate.plan.Travels (.between a b) ∧
      (Edge.between a next).Broken plan offer.candidate.plan ∧
      (Edge.between b behind).Broken plan offer.candidate.plan := by
  obtain ⟨a, b, inBodyLeft, inBodyRight, edge⟩ := exchanged.edge
  obtain ⟨startsLeft, endsLeft⟩ := exchanged.inLeft
  obtain ⟨startsRight, endsRight⟩ := exchanged.inRight
  obtain ⟨next, nextMember, atNext⟩ := Route.exists_stop (Nat.le_add_left 1 move.leftSplit) endsLeft
  obtain ⟨behind, behindMember, atBehind⟩ :=
    Route.exists_stop (Nat.le_add_left 1 move.rightSplit) endsRight
  have atLeft := (Route.getElem?_stops_of_pos startsLeft endsLeft.le).trans inBodyLeft
  have atRight := (Route.getElem?_stops_of_pos startsRight endsRight.le).trans inBodyRight
  have aStays : a ∈ newLeft.body := by
    rw [exchanged.bodyLeft]
    exact mem_joined_of_head startsLeft endsLeft.le atLeft
  have bStays : b ∈ newRight.body := by
    rw [exchanged.bodyRight]
    exact mem_joined_of_head startsRight endsRight.le atRight
  have nextMoves : next ∈ newRight.body := by
    rw [exchanged.bodyRight]
    exact mem_joined_of_tail endsLeft atNext
  have behindMoves : behind ∈ newLeft.body := by
    rw [exchanged.bodyLeft]
    exact mem_joined_of_tail endsRight atBehind
  refine ⟨a, next, b, behind, atLeft, atNext, atRight, atBehind, edge, ?_, ?_, ⟨?_, ?_⟩, ?_, ?_⟩
  · exact serves.not_travels exchanged.apart exchanged.heldLeft exchanged.heldRight
      (List.mem_of_getElem? inBodyLeft) (List.mem_of_getElem? inBodyRight)
  · exact servesToo.not_travels exchanged.apart exchanged.nowLeft exchanged.nowRight aStays bStays
  · exact Plan.travels_of_stops exchanged.heldLeft atLeft atNext
  · exact servesToo.not_travels exchanged.apart exchanged.nowLeft exchanged.nowRight aStays
      nextMoves
  · exact Plan.travels_of_stops exchanged.heldRight atRight atBehind
  · exact servesToo.not_travels exchanged.apart.symm exchanged.nowRight exchanged.nowLeft bStays
      behindMoves

end TailExchange

end TruckDrone
