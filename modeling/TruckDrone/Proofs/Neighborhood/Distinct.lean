import TruckDrone.Proofs.Neighborhood.Symmetry
import TruckDrone.Proofs.Plan.Single
import TruckDrone.Proofs.Search.RouteCount

/-! No move leads from a feasible solution to its own plan, and neither two reversals nor two
exchanges of tails lead to the same one. The slots of a two-opt move are those whose routes it
changes. Its positions are told by the customers: the first and the last that a reversal moves, and
those of the old route that an exchange leaves. -/

set_option autoImplicit false

namespace TruckDrone

variable {K : Type} {problem : Problem K} {plan : Plan} {offer second : Offer K}

namespace Reversal

variable {move other : Reversal} {before after : Route}

theorem Turned.ne (turned : move.Turned plan offer before after)
    (distinct : before.body.Nodup) : after ≠ before := by
  rintro rfl
  have moved := turned.turns.2 move.first
  rw [if_pos ⟨Nat.le_refl _, turned.ordered.le⟩, Nat.add_sub_cancel_left] at moved
  have inside := turned.ordered.le.trans turned.ends
  exact turned.ordered.ne (Route.position_unique distinct turned.starts inside moved)

theorem Turned.segment_unique (turned : move.Turned plan offer before after)
    (also : other.Turned plan second before after) (distinct : before.body.Nodup) :
    move.first = other.first ∧ move.last = other.last := by
  have agree : ∀ position, before.stops[if move.first ≤ position ∧ position ≤ move.last then
      move.first + move.last - position else position]? =
        before.stops[if other.first ≤ position ∧ position ≤ other.last then
          other.first + other.last - position else position]? :=
    fun position => (turned.turns.2 position).symm.trans (also.turns.2 position)
  -- The first customer of either segment goes where its last one was.
  have here := agree move.first
  have there := (agree other.first).symm
  rw [if_pos ⟨Nat.le_refl _, turned.ordered.le⟩, Nat.add_sub_cancel_left] at here
  rw [if_pos ⟨Nat.le_refl _, also.ordered.le⟩, Nat.add_sub_cancel_left] at there
  have first := Route.position_unique distinct (turned.starts.trans turned.ordered.le) turned.ends
    here
  have last := Route.position_unique distinct (also.starts.trans also.ordered.le) also.ends there
  have ordered := turned.ordered
  have orderedToo := also.ordered
  split at first <;> split at last <;> omega

theorem Yields.changes_iff (serves : plan.Serves problem) (applies : move.Applies problem plan)
    (yields : move.Yields problem plan offer) {slot : Slot} :
    offer.candidate.plan.occupant? slot ≠ plan.occupant? slot ↔ slot = move.slot := by
  obtain ⟨before, after, turned⟩ := yields.turned applies
  constructor
  · intro changed
    by_contra different
    exact changed (turned.stays slot different)
  · rintro rfl
    rw [turned.now, turned.held]
    intro same
    exact turned.ne (serves.nodup_body turned.held) (Option.some.inj same)

theorem Yields.ne (serves : plan.Serves problem) (applies : move.Applies problem plan)
    (yields : move.Yields problem plan offer) : offer.candidate.plan ≠ plan := fun same =>
  (yields.changes_iff serves applies).2 rfl (congrArg (Plan.occupant? · move.slot) same)

theorem Yields.move_unique (serves : plan.Serves problem) (applies : move.Applies problem plan)
    (yields : move.Yields problem plan offer) (appliesToo : other.Applies problem plan)
    (also : other.Yields problem plan second)
    (same : offer.candidate.plan = second.candidate.plan) :
    move = other := by
  have slots : move.slot = other.slot := by
    rw [← also.changes_iff serves appliesToo, ← same]
    exact (yields.changes_iff serves applies).2 rfl
  obtain ⟨before, after, turned⟩ := yields.turned applies
  obtain ⟨before', after', also⟩ := also.turned appliesToo
  obtain rfl : before = before' :=
    Option.some.inj (turned.held.symm.trans (slots ▸ also.held))
  obtain rfl : after = after' :=
    Option.some.inj (turned.now.symm.trans (same ▸ slots ▸ also.now))
  obtain ⟨firsts, lasts⟩ := turned.segment_unique also (serves.nodup_body turned.held)
  cases move
  cases other
  simp only [mk.injEq]
  exact ⟨slots, firsts, lasts⟩

end Reversal

namespace TailExchange

variable {move other : TailExchange} {head tail : Route} {i j k l : Nat}

/-- The other route's last customer comes in. -/
theorem joined_ne (disjoint : head.body.Disjoint tail.body) (inTail : j < tail.size) :
    head.body.take i ++ tail.body.drop j ≠ head.body := by
  intro same
  have member : tail.body[j] ∈ head.body.take i ++ tail.body.drop j := by
    rw [List.drop_eq_getElem_cons inTail]
    simp
  rw [same] at member
  exact disjoint member (List.getElem_mem inTail)

theorem countP_joined (disjoint : head.body.Disjoint tail.body) (inHead : i ≤ head.size) :
    (head.body.take i ++ tail.body.drop j).countP (· ∈ head.body) = i := by
  have own : (head.body.take i).countP (· ∈ head.body) = (head.body.take i).length :=
    List.countP_eq_length.2 fun id member => decide_eq_true (List.mem_of_mem_take member)
  have others : (tail.body.drop j).countP (· ∈ head.body) = 0 :=
    List.countP_eq_zero.2 fun id member visited =>
      disjoint (of_decide_eq_true visited) (List.mem_of_mem_drop member)
  rw [List.countP_append, own, others, List.length_take_of_le inHead, Nat.add_zero]

/-- A joined route tells both splits. -/
theorem splits_unique (disjoint : head.body.Disjoint tail.body) (inHead : i ≤ head.size)
    (inHeadToo : k ≤ head.size) (inTail : j ≤ tail.size) (inTailToo : l ≤ tail.size)
    (same : head.body.take i ++ tail.body.drop j = head.body.take k ++ tail.body.drop l) :
    i = k ∧ j = l := by
  have heads := congrArg (List.countP (· ∈ head.body)) same
  rw [countP_joined disjoint inHead, countP_joined disjoint inHeadToo] at heads
  have lengths := congrArg List.length same
  rw [List.length_append, List.length_append, List.length_take_of_le inHead,
    List.length_take_of_le inHeadToo, List.length_drop, List.length_drop] at lengths
  rw [Route.size] at inTail inTailToo
  omega

theorem Exchanged.disjoint {left right newLeft newRight : Route} (serves : plan.Serves problem)
    (exchanged : move.Exchanged plan offer left right newLeft newRight) :
    left.body.Disjoint right.body := fun _ first again =>
  exchanged.apart (serves.slot_unique exchanged.heldLeft exchanged.heldRight first again)

theorem Yields.changes_iff (serves : plan.Serves problem) (applies : move.Applies problem plan)
    (yields : move.Yields problem plan offer) {slot : Slot} :
    offer.candidate.plan.occupant? slot ≠ plan.occupant? slot ↔
      slot = move.left ∨ slot = move.right := by
  obtain ⟨left, right, newLeft, newRight, exchanged⟩ := yields.exchanged applies
  have disjoint := exchanged.disjoint serves
  constructor
  · intro changed
    by_contra different
    obtain ⟨notLeft, notRight⟩ := not_or.1 different
    exact changed (exchanged.stays slot notLeft notRight)
  · rintro (rfl | rfl)
    · rw [exchanged.nowLeft, exchanged.heldLeft]
      intro same
      have body := exchanged.bodyLeft
      rw [Option.some.inj same] at body
      exact joined_ne disjoint exchanged.inRight.2 body.symm
    · rw [exchanged.nowRight, exchanged.heldRight]
      intro same
      have body := exchanged.bodyRight
      rw [Option.some.inj same] at body
      exact joined_ne disjoint.symm exchanged.inLeft.2 body.symm

theorem Yields.ne (serves : plan.Serves problem) (applies : move.Applies problem plan)
    (yields : move.Yields problem plan offer) : offer.candidate.plan ≠ plan := fun same =>
  (yields.changes_iff serves applies).2 (.inl rfl) (congrArg (Plan.occupant? · move.left) same)

/-- The left vehicle comes before the right one, so no exchange changes the same slots the other
way round. -/
theorem Yields.slots_unique (serves : plan.Serves problem) (applies : move.Applies problem plan)
    (yields : move.Yields problem plan offer) (appliesToo : other.Applies problem plan)
    (also : other.Yields problem plan second)
    (same : offer.candidate.plan = second.candidate.plan) :
    move.left = other.left ∧ move.right = other.right := by
  have either : ∀ slot, slot = move.left ∨ slot = move.right ↔
      slot = other.left ∨ slot = other.right := by
    intro slot
    rw [← yields.changes_iff serves applies, same, also.changes_iff serves appliesToo]
  have ordered := applies.2.2.1
  have orderedToo := appliesToo.2.2.1
  have apart := applies.apart
  rcases (either move.left).1 (.inl rfl) with left | crossed
  · rcases (either move.right).1 (.inr rfl) with crossed | right
    · exact absurd (left.trans crossed.symm) apart
    · exact ⟨left, right⟩
  · rcases (either move.right).1 (.inr rfl) with left | right
    · rw [crossed, left] at ordered
      exact absurd ordered (Nat.lt_asymm orderedToo)
    · exact absurd (crossed.trans right.symm) apart

theorem Yields.move_unique (serves : plan.Serves problem) (applies : move.Applies problem plan)
    (yields : move.Yields problem plan offer) (appliesToo : other.Applies problem plan)
    (also : other.Yields problem plan second)
    (same : offer.candidate.plan = second.candidate.plan) :
    move = other := by
  obtain ⟨lefts, rights⟩ := yields.slots_unique serves applies appliesToo also same
  obtain ⟨left, right, newLeft, _, exchanged⟩ := yields.exchanged applies
  obtain ⟨left', right', newLeft', _, also⟩ := also.exchanged appliesToo
  obtain rfl : left = left' :=
    Option.some.inj (exchanged.heldLeft.symm.trans (lefts ▸ also.heldLeft))
  obtain rfl : right = right' :=
    Option.some.inj (exchanged.heldRight.symm.trans (rights ▸ also.heldRight))
  obtain rfl : newLeft = newLeft' :=
    Option.some.inj (exchanged.nowLeft.symm.trans (same ▸ lefts ▸ also.nowLeft))
  obtain ⟨leftSplits, rightSplits⟩ := splits_unique (exchanged.disjoint serves)
    exchanged.inLeft.2.le also.inLeft.2.le exchanged.inRight.2.le also.inRight.2.le
    (exchanged.bodyLeft.symm.trans also.bodyLeft)
  cases move
  cases other
  simp only [mk.injEq]
  exact ⟨lefts, rights, leftSplits, rightSplits⟩

end TailExchange

/-- The giver is shorter, or its vehicle has a route less. -/
theorem Chain.Yields.ne {chain : Chain} (applies : chain.Applies problem plan)
    (yields : chain.Yields problem plan offer) : offer.candidate.plan ≠ plan := by
  intro same
  obtain ⟨-, apart, giver, _, _, holds, -⟩ := applies
  have routes := yields.length_routes apart holds chain.giver.vehicle
  obtain ⟨_, _, _, _, _, left, newRelay, newTaker, present, -, -, gives, -, leaves, -, -, -, -,
    candidate, -⟩ := yields
  cases present.symm.trans holds
  unfold Leaves at leaves
  rw [same] at routes
  -- A giver that served no one else is gone, and its vehicle has a route less.
  have more : giver.size ≠ 1 := by
    intro last
    rw [if_pos ⟨rfl, last⟩] at routes
    omega
  rw [if_neg more] at leaves
  obtain ⟨rest, rfl, -, body⟩ := leaves
  have keeps : Plan.Keeps [(chain.relay, some newRelay), (chain.taker, some newTaker),
      (chain.giver, some rest)] := by
    simp [Plan.Keeps]
  have now : offer.candidate.plan.occupant? chain.giver = some rest := by
    rw [candidate, Problem.assess, Plan.occupant?_replace keeps, holds]
    simp [Plan.resettled, Plan.settled, List.lookup_cons, beq_false_of_ne apart.1,
      beq_false_of_ne apart.2.2.symm]
  rw [same, holds] at now
  cases now
  have inside := (List.getElem?_eq_some_iff.1 gives).1
  have shorter := congrArg List.length body
  rw [giverBody, List.length_eraseIdx_of_lt inside] at shorter
  omega

/-- From a feasible solution every offer leads elsewhere, and no two reversals nor two exchanges of
tails lead to the same plan. -/
theorem offers_distinct {solution : Solution K} (feasible : problem.violations solution = []) :
    (∀ offer, Offered problem solution offer → offer.candidate.plan ≠ solution.plan) ∧
    ((TwoOpt.reversals problem solution).items.map fun offer => offer.candidate.plan).Nodup ∧
    ((TwoOpt.tailExchanges problem solution).items.map fun offer =>
      offer.candidate.plan).Nodup := by
  have serves := serves_of_violations_eq_nil feasible
  have reversals := Reversal.lists_all problem solution
  have exchanges := TailExchange.lists_all problem solution
  refine ⟨?_, ?_, ?_⟩
  · rintro offer (reversal | exchange | relocation)
    · obtain ⟨move, listed, yields⟩ := reversals.exists_of_mem reversal
      exact yields.ne serves (Reversal.mem_all.1 listed)
    · obtain ⟨move, listed, yields⟩ := exchanges.exists_of_mem exchange
      exact yields.ne serves (TailExchange.mem_all.1 listed)
    · obtain ⟨chain, applies, yields⟩ := exists_chain_of_relocation relocation
      exact yields.ne applies
  · refine reversals.nodup_map trivial (Reversal.nodup_all ..) _ ?_
    intro move listed other listedToo offer second yields also same
    exact yields.move_unique serves (Reversal.mem_all.1 listed) (Reversal.mem_all.1 listedToo) also
      same
  · refine exchanges.nodup_map serves.knows (TailExchange.nodup_all ..) _ ?_
    intro move listed other listedToo offer second yields also same
    exact yields.move_unique serves (TailExchange.mem_all.1 listed)
      (TailExchange.mem_all.1 listedToo) also same

theorem offers_distinct_truck_drone :
    let problem : Problem Binary64 :=
      ⟨[.depot 0 0, ⟨1, 0, 1, false⟩, ⟨2, 1, 0, true⟩, ⟨3, 1, 1, true⟩, ⟨4, 0, 0, true⟩,
        ⟨5, 0, 1, true⟩], 1, 1, 0, fun _ => 0⟩
    let solution := problem.assess ⟨[[.truck [1, 2, 3]]], [[.drone [4, 5]]]⟩
    let reversed := (TwoOpt.reversals problem solution).items.map fun offer => offer.candidate.plan
    let exchanged :=
      (TwoOpt.tailExchanges problem solution).items.map fun offer => offer.candidate.plan
    problem.violations solution = [] ∧ reversed.length = 4 ∧ reversed.Nodup ∧
      exchanged = [⟨[[.truck [1, 5]]], [[.drone [4, 2, 3]]]⟩,
        ⟨[[.truck [1, 2, 5]]], [[.drone [4, 3]]]⟩] ∧ exchanged.Nodup ∧
      ∃ offer, Offered problem solution offer ∧ offer.candidate.plan ≠ solution.plan := by
  intro problem solution reversed exchanged
  have feasible : problem.violations solution = [] := by decide
  have four : reversed.length = 4 := by decide +kernel
  have two : exchanged = [⟨[[.truck [1, 5]]], [[.drone [4, 2, 3]]]⟩,
      ⟨[[.truck [1, 2, 5]]], [[.drone [4, 3]]]⟩] := by decide +kernel
  have listed : ⟨[[.truck [1, 5]]], [[.drone [4, 2, 3]]]⟩ ∈ exchanged := by
    rw [two]
    exact List.mem_cons_self ..
  obtain ⟨offer, offered, -⟩ := List.mem_map.1 listed
  obtain ⟨elsewhere, reversals, exchanges⟩ := offers_distinct feasible
  exact ⟨feasible, four, reversals, two, exchanges, offer, .inr (.inl offered),
    elsewhere offer (.inr (.inl offered))⟩

end TruckDrone
