import TruckDrone.Proofs.Neighborhood.Reversal
import TruckDrone.Proofs.Neighborhood.TailExchange
import TruckDrone.Proofs.Violation.Feasible
import TruckDrone.Search.Move

/-! The way back from a two-opt candidate. A move that leads from one plan to another is offered
again in the other plan, at the same routes and positions, and leads to the first plan. -/

set_option autoImplicit false

namespace TruckDrone

variable {K : Type} {problem : Problem K} {solution : Solution K} {offer : Offer K}

/-! Turning a segment twice. -/

namespace Reversal

variable {move : Reversal}

def Offers (problem : Problem K) (solution : Solution K) (move : Reversal) (offer : Offer K) :
    Prop :=
  move.Applies problem solution.plan ∧ move.Yields problem solution.plan offer ∧
    offer ∈ (TwoOpt.reversals problem solution).items

theorem Turns.symm {before after : Route} (turns : move.Turns before after) :
    move.Turns after before := by
  refine ⟨turns.1.symm, fun position => ?_⟩
  rw [turns.2]
  congr 1
  split
  · -- What stands within the segment came from a place within it.
    rw [if_pos (by omega)]
    omega
  · rfl

theorem Yields.unique {plan : Plan} {other : Offer K} (yields : move.Yields problem plan offer)
    (also : move.Yields problem plan other) : other = offer := by
  obtain ⟨before, after, occupied, turns, candidate, start, finish, starts, finishes, edge⟩ :=
    yields
  obtain ⟨_, after', occupied', turns', candidate', _, _, starts', finishes', edge'⟩ := also
  cases occupied.symm.trans occupied'
  cases turns.unique turns'
  cases starts.symm.trans starts'
  cases finishes.symm.trans finishes'
  cases offer
  cases other
  cases candidate.trans candidate'.symm
  cases edge.trans edge'.symm
  rfl

theorem Yields.offers (yields : move.Yields problem solution.plan offer)
    (applies : move.Applies problem solution.plan) : move.Offers problem solution offer := by
  obtain ⟨item, member, also⟩ :=
    (lists_all problem solution).exists_item True.intro (mem_all.2 applies)
  exact ⟨applies, yields, yields.unique also ▸ member⟩

theorem exists_offers (member : offer ∈ (TwoOpt.reversals problem solution).items) :
    ∃ move, Offers problem solution move offer := by
  obtain ⟨move, inAll, yields⟩ := (lists_all problem solution).exists_of_mem member
  exact ⟨move, mem_all.1 inAll, yields, member⟩

theorem Offers.back (offers : move.Offers problem solution offer) :
    ∃ route start first, solution.plan.occupant? move.slot = some route ∧
      route.stops[move.first - 1]? = some start ∧ route.stops[move.first]? = some first ∧
      move.Offers problem offer.candidate
        ⟨problem.assess solution.plan, .between start first⟩ := by
  obtain ⟨applies, ⟨before, after, occupied, turns, candidate, -⟩, -⟩ := offers
  obtain ⟨inFleet, starts, ordered, route, present, ends⟩ := applies
  cases occupied.symm.trans present
  have keeps : ∀ placed : Route, Plan.Keeps [(move.slot, some placed)] := by
    simp [Plan.Keeps]
  have size : after.size = before.size := (turns.body_perm starts ordered ends).length_eq
  have startInside : move.first - 1 < before.stops.length := by
    rw [Route.length_stops]
    omega
  have firstInside : move.first < before.stops.length := by
    rw [Route.length_stops]
    omega
  have startStays : after.stops[move.first - 1]? = some before.stops[move.first - 1] := by
    rw [turns.2, if_neg (by omega), List.getElem?_eq_getElem startInside]
  have firstMoves : after.stops[move.last]? = some before.stops[move.first] := by
    rw [turns.2, if_pos ⟨ordered.le, Nat.le_refl _⟩, Nat.add_sub_cancel,
      List.getElem?_eq_getElem firstInside]
  have holds : offer.candidate.plan.occupant? move.slot = some after := by
    rw [candidate]
    exact Plan.occupant?_replace_some present after
  have restored : (solution.plan.replace [(move.slot, some after)]).replace
      [(move.slot, some before)] = solution.plan :=
    Plan.replace_restore (keeps after) (keeps before) rfl (by simpa using present)
  refine ⟨before, _, _, present, List.getElem?_eq_getElem startInside,
    List.getElem?_eq_getElem firstInside, Yields.offers ?_ ?_⟩
  · refine ⟨after, before, holds, turns.symm, ?_, _, _, startStays, firstMoves, rfl⟩
    rw [candidate]
    exact congrArg problem.assess restored.symm
  · exact ⟨inFleet, starts, ordered, after, holds, size ▸ ends⟩

end Reversal

/-! Exchanging tails twice. -/

structure Plan.Permitted (problem : Problem K) (plan : Plan) : Prop where
  kinds : ∀ vehicle, ∀ route ∈ plan.routes vehicle, route.kind = vehicle.kind
  known : problem.Knows plan
  dronable : ∀ drone, ∀ route ∈ plan.routes (.drone drone), ∀ id ∈ route.body,
    problem.dronable id = .ok true

theorem Plan.Serves.permitted {plan : Plan} (serves : plan.Serves problem) :
    plan.Permitted problem := ⟨serves.kinds, serves.knows, serves.dronable⟩

namespace TailExchange

variable {move : TailExchange}

def Offers (problem : Problem K) (solution : Solution K) (move : TailExchange) (offer : Offer K) :
    Prop :=
  move.Applies problem solution.plan ∧ move.Yields problem solution.plan offer ∧
    offer ∈ (TwoOpt.tailExchanges problem solution).items

theorem Yields.unique {plan : Plan} {other : Offer K} (yields : move.Yields problem plan offer)
    (also : move.Yields problem plan other) : other = offer := by
  obtain ⟨left, right, newLeft, newRight, holdsLeft, holdsRight, kindLeft, bodyLeft, kindRight,
    bodyRight, candidate, a, b, beforeLeft, beforeRight, edge⟩ := yields
  obtain ⟨_, _, newLeft', newRight', holdsLeft', holdsRight', kindLeft', bodyLeft', kindRight',
    bodyRight', candidate', _, _, beforeLeft', beforeRight', edge'⟩ := also
  cases holdsLeft.symm.trans holdsLeft'
  cases holdsRight.symm.trans holdsRight'
  cases beforeLeft.symm.trans beforeLeft'
  cases beforeRight.symm.trans beforeRight'
  obtain rfl : newLeft = newLeft' :=
    Route.ext_iff_body.2 ⟨kindLeft.trans kindLeft'.symm, bodyLeft.trans bodyLeft'.symm⟩
  obtain rfl : newRight = newRight' :=
    Route.ext_iff_body.2 ⟨kindRight.trans kindRight'.symm, bodyRight.trans bodyRight'.symm⟩
  cases offer
  cases other
  cases candidate.trans candidate'.symm
  cases edge.trans edge'.symm
  rfl

theorem Yields.offers (yields : move.Yields problem solution.plan offer)
    (applies : move.Applies problem solution.plan) (known : problem.Knows solution.plan) :
    move.Offers problem solution offer := by
  obtain ⟨item, member, also⟩ := (lists_all problem solution).exists_item known (mem_all.2 applies)
  exact ⟨applies, yields, yields.unique also ▸ member⟩

theorem exists_offers (member : offer ∈ (TwoOpt.tailExchanges problem solution).items) :
    ∃ move, Offers problem solution move offer := by
  obtain ⟨move, inAll, yields⟩ := (lists_all problem solution).exists_of_mem member
  exact ⟨move, mem_all.1 inAll, yields, member⟩

theorem Yields.knows (yields : move.Yields problem solution.plan offer)
    (known : problem.Knows solution.plan) : problem.Knows offer.candidate.plan := by
  obtain ⟨left, right, newLeft, newRight, holdsLeft, holdsRight, -, bodyLeft, -, bodyRight,
    candidate, -⟩ := yields
  have inside : ∀ id, id ∈ left.body ∨ id ∈ right.body → id < problem.size := fun id member =>
    member.elim (known.lt_size holdsLeft) (known.lt_size holdsRight)
  rw [candidate]
  refine known.replace (by simp [Plan.Keeps]) fun slot route member id visited => ?_
  simp only [List.mem_cons, Prod.mk.injEq, Option.some.injEq, List.not_mem_nil, or_false] at member
  rcases member with ⟨-, rfl⟩ | ⟨-, rfl⟩
  · rw [bodyLeft] at visited
    exact inside id (mem_of_joined visited)
  · rw [bodyRight] at visited
    exact inside id (mem_of_joined visited).symm

/-- The heads stay where they are, so the tails come back behind them. -/
theorem joined_twice {head tail : List Nat} {i j : Nat} (inHead : i ≤ head.length)
    (inTail : j ≤ tail.length) :
    (head.take i ++ tail.drop j).take i ++ (tail.take j ++ head.drop i).drop j = head := by
  rw [List.take_left' (List.length_take_of_le inHead),
    List.drop_left' (List.length_take_of_le inTail), List.take_append_drop]

theorem getElem?_joined {head tail : List Nat} {i j : Nat} (starts : 1 ≤ i)
    (inHead : i ≤ head.length) :
    (head.take i ++ tail.drop j)[i - 1]? = head[i - 1]? := by
  rw [List.getElem?_append_left (by rw [List.length_take_of_le inHead]; omega),
    List.getElem?_take_of_lt (by omega)]

theorem lt_length_joined {head tail : List Nat} {i j : Nat} (inHead : i ≤ head.length)
    (inTail : j < tail.length) : i < (head.take i ++ tail.drop j).length := by
  rw [List.length_append, List.length_take_of_le inHead, List.length_drop]
  omega

theorem Offers.back (offers : move.Offers problem solution offer)
    (permitted : solution.plan.Permitted problem) :
    move.Offers problem offer.candidate ⟨problem.assess solution.plan, offer.edge⟩ := by
  obtain ⟨applies, yields, -⟩ := offers
  have apart := applies.apart
  have known := yields.knows permitted.known
  obtain ⟨left, right, newLeft, newRight, holdsLeft, holdsRight, kindLeft, bodyLeft, kindRight,
    bodyRight, candidate, a, b, beforeLeft, beforeRight, edge⟩ := yields
  obtain ⟨ownsLeft, ownsRight, ordered, _, _, presentLeft, presentRight, inLeft, inRight,
    -, -⟩ := applies
  cases holdsLeft.symm.trans presentLeft
  cases holdsRight.symm.trans presentRight
  have servedLeft := Plan.mem_routes_of_occupant? holdsLeft
  have servedRight := Plan.mem_routes_of_occupant? holdsRight
  have keeps : ∀ first second : Route,
      Plan.Keeps [(move.left, some first), (move.right, some second)] := by
    simp [Plan.Keeps]
  obtain ⟨holdsNewLeft, holdsNewRight⟩ : offer.candidate.plan.occupant? move.left = some newLeft ∧
      offer.candidate.plan.occupant? move.right = some newRight := by
    rw [candidate]
    exact Plan.occupant?_replace_pair apart holdsLeft holdsRight newLeft newRight
  have restored : (solution.plan.replace
      [(move.left, some newLeft), (move.right, some newRight)]).replace
        [(move.left, some left), (move.right, some right)] = solution.plan :=
    Plan.replace_restore (keeps _ _) (keeps _ _) rfl (by simp [holdsLeft, holdsRight])
  have backLeft : move.leftBody newLeft newRight = left.body := by
    rw [leftBody, bodyLeft, bodyRight]
    exact joined_twice inLeft.2.le inRight.2.le
  have backRight : move.rightBody newLeft newRight = right.body := by
    rw [rightBody, bodyLeft, bodyRight]
    exact joined_twice inRight.2.le inLeft.2.le
  refine Yields.offers ?_ ?_ known
  · refine ⟨newLeft, newRight, left, right, holdsNewLeft, holdsNewRight,
      permitted.kinds _ _ servedLeft, backLeft.symm, permitted.kinds _ _ servedRight,
      backRight.symm, ?_, a, b, ?_, ?_, edge⟩
    · rw [candidate]
      exact congrArg problem.assess restored.symm
    · rw [bodyLeft]
      exact (getElem?_joined inLeft.1 inLeft.2.le).trans beforeLeft
    · rw [bodyRight]
      exact (getElem?_joined inRight.1 inRight.2.le).trans beforeRight
  · refine ⟨ownsLeft, ownsRight, ordered, newLeft, newRight, holdsNewLeft, holdsNewRight,
      ⟨inLeft.1, ?_⟩, ⟨inRight.1, ?_⟩, ?_, ?_⟩
    · rw [Route.size, bodyLeft]
      exact lt_length_joined inLeft.2.le inRight.2
    · rw [Route.size, bodyRight]
      exact lt_length_joined inRight.2.le inLeft.2
    · rw [backLeft]
      exact fun _ => Problem.suits_of_dronable permitted.dronable servedLeft
    · rw [backRight]
      exact fun _ => Problem.suits_of_dronable permitted.dronable servedRight

end TailExchange

/-- A move with an edge is known by it, wherever it leads. -/
theorem Move.keyOf_congr {edge : Edge} (proper : edge ≠ .trivial) (label : String)
    (first second : Solution K) : keyOf label edge first = keyOf label edge second := by
  have keyed : ¬ edge.isTrivial = true := fun trivial => proper (Edge.isTrivial_iff.1 trivial)
  rw [keyOf, keyOf, if_neg keyed, if_neg keyed]

/-- From each candidate of a reversal the same reversal leads back, under the edge between its
first customer and the stop before. Where the routes are permitted the same exchange leads back
from each candidate of a tail exchange, under the edge of the way there, so both have one key. -/
theorem TwoOpt.moves_symmetric (problem : Problem K) (solution : Solution K) :
    (∀ offer ∈ (reversals problem solution).items,
      ∃ move : Reversal, move.Offers problem solution offer) ∧
    (∀ (move : Reversal) (offer : Offer K), move.Offers problem solution offer →
      ∃ route start first, solution.plan.occupant? move.slot = some route ∧
        route.stops[move.first - 1]? = some start ∧ route.stops[move.first]? = some first ∧
        move.Offers problem offer.candidate
          ⟨problem.assess solution.plan, .between start first⟩) ∧
    (solution.plan.Permitted problem →
      (∀ offer ∈ (tailExchanges problem solution).items,
        ∃ move : TailExchange, move.Offers problem solution offer) ∧
      ∀ (move : TailExchange) (offer : Offer K), move.Offers problem solution offer →
        move.Offers problem offer.candidate ⟨problem.assess solution.plan, offer.edge⟩ ∧
        ∀ label, Move.keyOf label offer.edge (problem.assess solution.plan) =
          Move.keyOf label offer.edge offer.candidate) := by
  refine ⟨fun _ => Reversal.exists_offers, fun _ _ => Reversal.Offers.back, fun permitted =>
    ⟨fun _ => TailExchange.exists_offers, fun move offer offers => ⟨offers.back permitted, ?_⟩⟩⟩
  exact fun label => Move.keyOf_congr offers.2.1.edge_ne_trivial label _ _

theorem TwoOpt.moves_symmetric_truck_drone :
    let problem : Problem Binary64 :=
      ⟨[.depot 0 0, ⟨1, 0, 1, false⟩, ⟨2, 1, 0, true⟩, ⟨3, 1, 1, true⟩, ⟨4, 0, 0, true⟩], 1, 1, 0,
        fun _ => 0⟩
    let solution := problem.assess ⟨[[.truck [1, 2]]], [[.drone [3, 4]]]⟩
    let move : TailExchange := ⟨⟨.truck 0, 0⟩, ⟨.drone 0, 0⟩, 1, 1⟩
    solution.plan.Permitted problem ∧ ∃ offer, move.Offers problem solution offer ∧
      move.Offers problem offer.candidate ⟨problem.assess solution.plan, offer.edge⟩ := by
  intro problem solution move
  have clean : problem.violations solution = [] := by decide
  have permitted := (serves_of_violations_eq_nil clean).permitted
  have applies : move.Applies problem solution.plan :=
    ⟨by decide, by decide, by decide, .truck [1, 2], .drone [3, 4], rfl, rfl, by decide,
      by decide, by decide, by decide⟩
  obtain ⟨offer, -, yields⟩ := (TailExchange.lists_all problem solution).exists_item
    permitted.known (TailExchange.mem_all.2 applies)
  have offers := yields.offers applies permitted.known
  exact ⟨permitted, offer, offers,
    (((moves_symmetric problem solution).2.2 permitted).2 move offer offers).1⟩

end TruckDrone
