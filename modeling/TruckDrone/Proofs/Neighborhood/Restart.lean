import TruckDrone.Proofs.Neighborhood.Cheapest

/-! What an aspiration does to an exploration. It is asked about every candidate once, in the order
of the enumeration and before any costs are compared. A candidate that aspires is taken whatever
came before it, so the outcome is that of a scan that begins with the last of them. -/

set_option autoImplicit false

namespace TruckDrone

variable {K : Type}

/-! Asking about one candidate after the other. -/

namespace Exploration

def ask (aspiration : Aspiration K) (firstCall : Nat) (candidate : Solution K) :
    StateM (List (Solution K)) Bool :=
  modifyGet fun asked => (aspiration (firstCall + asked.length) candidate, asked ++ [candidate])

theorem run_ask (aspiration : Aspiration K) (firstCall : Nat) (candidate : Solution K)
    (asked : List (Solution K)) : (ask aspiration firstCall candidate).run asked =
      (aspiration (firstCall + asked.length) candidate, asked ++ [candidate]) := rfl

variable [Scalar K]

/-- Takes an offer or passes over it. Costs are compared only if the candidate does not aspire. -/
def weigh {m : Type → Type} [Monad m] (aspires : Solution K → m Bool) (best : Exploration K)
    (offer : Offer K) : m (Exploration K) := do
  if ← aspires offer.candidate <||> pure (best.accepts false offer.candidate) then
    return ⟨some offer.candidate, offer.edge⟩
  else return best

end Exploration

variable [Scalar K]

def Sweep.inquire {m : Type → Type} [Monad m] (sweep : Sweep (Offer K))
    (aspires : Solution K → m Bool) : m (Except Fault (Exploration K)) := do
  let best ← sweep.items.foldlM (Exploration.weigh aspires) .nothing
  return match sweep.fault with
    | some fault => .error fault
    | none => .ok best

namespace Exploration

theorem accepts_eq_or (best : Exploration K) (aspires : Bool) (candidate : Solution K) :
    best.accepts aspires candidate = (aspires || best.accepts false candidate) := by
  simp [accepts]

theorem run_weigh (aspiration : Aspiration K) (firstCall : Nat) (best : Exploration K)
    (offer : Offer K) (asked : List (Solution K)) :
    (weigh (ask aspiration firstCall) best offer).run asked =
      (best.consider offer (aspiration (firstCall + asked.length) offer.candidate),
        asked ++ [offer.candidate]) := by
  rw [weigh, orM, consider, accepts_eq_or, bind_assoc, StateT.run_bind, run_ask]
  cases aspiration (firstCall + asked.length) offer.candidate with
  | true => rfl
  | false => cases taken : best.accepts false offer.candidate <;> rfl

theorem run_foldlM_weigh (aspiration : Aspiration K) (firstCall : Nat) (offers : List (Offer K)) :
    (offers.foldlM (weigh (ask aspiration firstCall)) nothing).run [] =
      (scan aspiration firstCall offers, offers.map Offer.candidate) := by
  induction offers using List.reverseRecOn with
  | nil => rfl
  | append_singleton offers last ih =>
    have asked : (offers.map Offer.candidate).length = offers.length := List.length_map _
    rw [scan_append_singleton, ← asked, List.map_append, List.foldlM_append, StateT.run_bind, ih]
    exact run_weigh aspiration firstCall _ last _

end Exploration

/-- Whatever is answered, the outcome is the one of the scan, and the candidates that are asked
about are those of the enumeration. -/
theorem Sweep.run_inquire (sweep : Sweep (Offer K)) (aspiration : Aspiration K) (firstCall : Nat) :
    (sweep.inquire (Exploration.ask aspiration firstCall)).run [] =
      (sweep.explore aspiration firstCall, sweep.items.map Offer.candidate) := by
  rw [inquire, StateT.run_bind, Exploration.run_foldlM_weigh, explore]
  cases sweep.fault <;> rfl

/-! The last candidate that aspires. -/

namespace Exploration

structure LastAspiring (aspiration : Aspiration K) (firstCall : Nat) (offers : List (Offer K))
    (position : Nat) (offer : Offer K) : Prop where
  present : offers[position]? = some offer
  aspires : aspiration (firstCall + position) offer.candidate = true
  noneBehind : ∀ later other, position < later → offers[later]? = some other →
    aspiration (firstCall + later) other.candidate = false

variable {aspiration : Aspiration K} {firstCall : Nat} {offers : List (Offer K)}

omit [Scalar K] in
theorem exists_lastAspiring
    (someone : ∃ call offer, offers[call]? = some offer ∧
      aspiration (firstCall + call) offer.candidate = true) :
    ∃ position offer, LastAspiring aspiration firstCall offers position offer := by
  classical
  have inside {call : Nat} {offer : Offer K} (present : offers[call]? = some offer) :
      call ≤ offers.length := (List.getElem?_eq_some_iff.1 present).1.le
  obtain ⟨call, offer, present, aspires⟩ := someone
  obtain ⟨last, there, taken⟩ := Nat.findGreatest_spec (P := fun call => ∃ offer,
    offers[call]? = some offer ∧ aspiration (firstCall + call) offer.candidate = true)
    (inside present) ⟨offer, present, aspires⟩
  refine ⟨_, last, there, taken, fun later other behind found => ?_⟩
  have greatest := Nat.findGreatest_is_greatest behind (inside found)
  exact Bool.eq_false_of_not_eq_true fun also => greatest ⟨other, found, also⟩

theorem scan_append_aspiring {before after : List (Offer K)} {offer : Offer K}
    (aspires : aspiration (firstCall + before.length) offer.candidate = true)
    (noneBehind : ∀ call other, after[call]? = some other →
      aspiration (firstCall + (before.length + (call + 1))) other.candidate = false) :
    scan aspiration firstCall (before ++ offer :: after) = scan .never 0 (offer :: after) := by
  induction after using List.reverseRecOn with
  | nil =>
    rw [scan_append_singleton, aspires]
    rfl
  | append_singleton after last ih =>
    have same := ih fun call other present => noneBehind call other
      (by rw [List.getElem?_append_left (List.getElem?_eq_some_iff.1 present).1, present])
    have passed := noneBehind after.length last (by simp)
    rw [← List.cons_append, ← List.append_assoc, scan_append_singleton, scan_append_singleton, same,
      List.length_append, List.length_cons, passed]

theorem LastAspiring.scan_eq {position : Nat} {offer : Offer K}
    (last : LastAspiring aspiration firstCall offers position offer) :
    scan aspiration firstCall offers = scan .never 0 (offers.drop position) := by
  obtain ⟨present, aspires, noneBehind⟩ := last
  obtain ⟨before, after, rfl, rfl⟩ := Sequence.exists_append_of_getElem? present
  rw [List.drop_left]
  refine scan_append_aspiring aspires fun call other found => noneBehind _ other (by omega) ?_
  rw [List.getElem?_append_right (by omega), Nat.add_sub_cancel_left, List.getElem?_cons_succ,
    found]

/-- What comes first costs least, or gave way to what costs less. -/
theorem Cheapest.le_head {head : Offer EReal} {rest : List (Offer EReal)}
    {outcome : Exploration EReal} (cheapest : Cheapest (head :: rest) outcome) :
    ∃ chosen ∈ head :: rest, outcome = ⟨some chosen.candidate, chosen.edge⟩ ∧
      chosen.candidate.cost ≤ head.candidate.cost := by
  obtain ⟨solution, edge⟩ := outcome
  cases solution with
  | none => cases cheapest.absent_iff.1 rfl
  | some chosen =>
    obtain ⟨before, after, split, earlier, -⟩ := cheapest.first chosen rfl
    refine ⟨⟨chosen, edge⟩, by simp [split], rfl, ?_⟩
    cases before with
    | nil =>
      rw [(List.cons.inj split).1]
    | cons first between =>
      rw [(List.cons.inj split).1]
      exact (earlier first (List.mem_cons_self ..)).le

end Exploration

/-- However the candidates are judged while they are enumerated, each of them is asked about once
and in turn. If some aspire, all that comes before the last of those is forgotten. -/
structure Sweep.Restarts (sweep : Sweep (Offer K)) (aspiration : Aspiration K)
    (firstCall : Nat) : Prop where
  asks : (sweep.inquire (Exploration.ask aspiration firstCall)).run [] =
    (sweep.explore aspiration firstCall, sweep.items.map Offer.candidate)
  restarts : (∃ call offer, sweep.items[call]? = some offer ∧
      aspiration (firstCall + call) offer.candidate = true) →
    ∃ position offer, Exploration.LastAspiring aspiration firstCall sweep.items position offer ∧
      sweep.explore aspiration firstCall =
        explore ⟨sweep.items.drop position, sweep.fault⟩ .never 0

theorem Sweep.restarts_all (sweep : Sweep (Offer K)) (aspiration : Aspiration K)
    (firstCall : Nat) : sweep.Restarts aspiration firstCall where
  asks := run_inquire sweep aspiration firstCall
  restarts someone := by
    obtain ⟨position, offer, last⟩ := Exploration.exists_lastAspiring someone
    refine ⟨position, offer, last, ?_⟩
    rw [explore, explore, last.scan_eq]

def Neighborhood.sweeps (neighborhood : Neighborhood K) (problem : Problem K)
    (solution : Solution K) : List (Sweep (Offer K)) :=
  [neighborhood.withinRoute problem solution, neighborhood.betweenRoutes problem solution]

omit [Scalar K] in
theorem Neighborhood.clean_of_mem_sweeps {neighborhood : Neighborhood K} {problem : Problem K}
    {solution : Solution K} {sweep : Sweep (Offer K)} (known : problem.Knows solution.plan)
    (operator : neighborhood ∈ [TwoOpt.neighborhood, EjectionChain.neighborhood])
    (listed : sweep ∈ neighborhood.sweeps problem solution) : sweep.fault = none := by
  rcases List.mem_pair.1 operator with rfl | rfl
  · rcases List.mem_pair.1 listed with rfl | rfl
    · exact (Reversal.lists_all problem solution).clean trivial
    · exact (TailExchange.lists_all problem solution).clean known
  · rcases List.mem_pair.1 listed with rfl | rfl
    · rfl
    · exact (Chain.lists_all problem solution).clean known

/-- Every exploration, however it is cut short, asks about each candidate that was enumerated once
and in turn. From the last candidate that aspires on it goes as if nothing aspired, so that costs
without rounding never exceed the cost of that candidate. -/
theorem explorations_restart :
    (∀ (K : Type) [Scalar K] (problem : Problem K) (solution : Solution K),
      ∀ neighborhood ∈ [TwoOpt.neighborhood, EjectionChain.neighborhood],
      ∀ sweep ∈ neighborhood.sweeps problem solution,
        (problem.Knows solution.plan → sweep.fault = none) ∧
        ∀ aspiration firstCall, sweep.Restarts aspiration firstCall) ∧
    ∀ (problem : Problem EReal) (solution : Solution EReal),
      ∀ neighborhood ∈ [TwoOpt.neighborhood, EjectionChain.neighborhood],
      ∀ sweep ∈ neighborhood.sweeps problem solution, sweep.fault = none →
      ∀ aspiration firstCall position offer,
        Exploration.LastAspiring aspiration firstCall sweep.items position offer →
        ∃ chosen ∈ sweep.items.drop position,
          sweep.explore aspiration firstCall = .ok ⟨some chosen.candidate, chosen.edge⟩ ∧
          chosen.candidate.cost ≤ offer.candidate.cost := by
  constructor
  · intro K _ problem solution neighborhood operator sweep listed
    exact ⟨fun known => Neighborhood.clean_of_mem_sweeps known operator listed,
      sweep.restarts_all⟩
  · intro problem solution neighborhood _ sweep _ clean aspiration firstCall position offer last
    obtain ⟨before, after, split, rfl⟩ := Sequence.exists_append_of_getElem? last.present
    have suffix : sweep.items.drop before.length = offer :: after := by rw [split, List.drop_left]
    rw [Sweep.explore_of_clean clean, last.scan_eq, suffix]
    obtain ⟨chosen, member, outcome, lower⟩ :=
      (Exploration.scan_cheapest 0 (offer :: after)).le_head
    exact ⟨chosen, member, congrArg _ outcome, lower⟩

/-- The second exchange costs more than the first, but the second call is answered with yes. -/
theorem explorations_restart_costlier :
    let price (plan : Plan) : EReal :=
      if plan.trucks.head? = some [.truck [1, 4, 5]] then 0 else 1
    let problem : Problem EReal :=
      ⟨[.depot 0 0, ⟨1, 0, 1, false⟩, ⟨2, 1, 0, true⟩, ⟨3, 1, 1, true⟩, ⟨4, 0, 0, true⟩,
        ⟨5, 0, 2, true⟩], 2, 0, 0, price⟩
    let solution := problem.assess ⟨[[.truck [1, 2]], [.truck [3, 4, 5]]], []⟩
    let sweep := TwoOpt.neighborhood.betweenRoutes problem solution
    let second : Aspiration EReal := fun call _ => call == 1
    problem.Knows solution.plan ∧ sweep.fault = none ∧
      ∃ cheap costly, sweep.items = [cheap, costly] ∧
        cheap.candidate.plan.trucks.head? = some [.truck [1, 4, 5]] ∧
        costly.candidate.plan.trucks.head? = some [.truck [1, 5]] ∧
        Exploration.LastAspiring second 0 sweep.items 1 costly ∧
        sweep.Restarts second 0 ∧
        sweep.explore second 0 = .ok ⟨some costly.candidate, costly.edge⟩ := by
  intro price problem solution sweep second
  have operator : TwoOpt.neighborhood (K := EReal) ∈
      [TwoOpt.neighborhood, EjectionChain.neighborhood] :=
    List.mem_cons_self ..
  have listed : sweep ∈ TwoOpt.neighborhood.sweeps problem solution :=
    List.mem_cons_of_mem _ (List.mem_cons_self ..)
  have known : problem.Knows solution.plan := by decide
  have routes : sweep.items.map (fun offer => offer.candidate.plan.trucks.head?) =
      [some [.truck [1, 4, 5]], some [.truck [1, 5]]] := by decide +kernel
  obtain ⟨restarts, lower⟩ := explorations_restart
  obtain ⟨clean, restarts⟩ := restarts EReal problem solution _ operator sweep listed
  obtain ⟨cheap, others, items, first, routes⟩ := List.map_eq_cons_iff.1 routes
  obtain ⟨costly, none, rfl, last, routes⟩ := List.map_eq_cons_iff.1 routes
  cases List.map_eq_nil_iff.1 routes
  have aspires : Exploration.LastAspiring second 0 sweep.items 1 costly := by
    rw [items]
    exact ⟨rfl, rfl, fun later other behind _ => beq_false_of_ne (by omega)⟩
  obtain ⟨chosen, member, outcome, -⟩ :=
    lower problem solution _ operator sweep listed (clean known) second 0 1 costly aspires
  rw [items, List.drop_one, List.tail_cons, List.mem_singleton] at member
  rw [member] at outcome
  exact ⟨known, clean known, cheap, costly, items, first, last, aspires, restarts second 0, outcome⟩

end TruckDrone
