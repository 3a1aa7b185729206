import TruckDrone.Proofs.Construction.NearestNeighbor
import TruckDrone.Proofs.Construction.RandomDeal
import TruckDrone.Proofs.Search.Neighbors

/-! How many routes a vehicle has. No move gives a vehicle a route more, so a search leaves idle
vehicles idle, and from a constructed solution it reaches none with two routes for a vehicle. -/

set_option autoImplicit false

namespace TruckDrone

variable {K : Type} {problem : Problem K} {solution first final : Solution K} {offer : Offer K}

theorem length_routes_of_reversal (member : offer ∈ (TwoOpt.reversals problem solution).items)
    (vehicle : Vehicle) :
    (offer.candidate.plan.routes vehicle).length = (solution.plan.routes vehicle).length := by
  obtain ⟨move, inAll, yields⟩ := (Reversal.lists_all problem solution).exists_of_mem member
  exact ((yields.keeps (Reversal.mem_all.1 inAll)).2.2 vehicle).2

theorem length_routes_of_tailExchange
    (member : offer ∈ (TwoOpt.tailExchanges problem solution).items) (vehicle : Vehicle) :
    (offer.candidate.plan.routes vehicle).length = (solution.plan.routes vehicle).length := by
  obtain ⟨move, inAll, yields⟩ := (TailExchange.lists_all problem solution).exists_of_mem member
  exact yields.keeps.2.2 vehicle

namespace Chain

variable {chain : Chain} {plan : Plan}

theorem Leaves.eq_none_iff {giver : Route} {left : Option Route}
    (leaves : chain.Leaves giver left) : left = none ↔ giver.size = 1 := by
  unfold Leaves at leaves
  split at leaves
  next last => exact iff_of_true leaves last
  next more =>
    obtain ⟨rest, rfl, -⟩ := leaves
    exact iff_of_false nofun more

theorem Yields.length_routes (apart : Apart chain.giver chain.relay chain.taker)
    (yields : chain.Yields problem plan offer) {giver : Route}
    (holds : plan.occupant? chain.giver = some giver) (vehicle : Vehicle) :
    (offer.candidate.plan.routes vehicle).length +
      (if vehicle = chain.giver.vehicle ∧ giver.size = 1 then 1 else 0) =
        (plan.routes vehicle).length := by
  obtain ⟨a, _, _, _, _, left, relay, taker, holdsGiver, -, -, -, -, leaves, -, -, -, -, candidate,
    -⟩ := yields
  cases holdsGiver.symm.trans holds
  -- The relay and the taker are replaced first, so that the giver alone may be dropped.
  let kept : List (Slot × Option Route) := [(chain.relay, some relay), (chain.taker, some taker)]
  have keeps : Plan.Keeps kept := by simp [kept, Plan.Keeps]
  have others : ∀ entry ∈ kept, entry.1 ∉ [(chain.giver, left)].map Prod.fst := by
    simp [kept, apart.1.symm, apart.2.2]
  have whole : offer.candidate.plan = (plan.replace kept).replace [(chain.giver, left)] := by
    rw [candidate, Plan.replace_replace keeps others]
    rfl
  have inside : chain.giver.position < ((plan.replace kept).routes chain.giver.vehicle).length := by
    rw [Plan.length_routes_replace keeps]
    exact Plan.position_lt holds
  simp only [← leaves.eq_none_iff]
  rw [whole, Plan.length_routes_replace_singleton inside, Plan.length_routes_replace keeps]

end Chain

theorem exists_chain_of_relocation
    (member : offer ∈ (EjectionChain.relocations problem solution).items) :
    ∃ chain : Chain, chain.Applies problem solution.plan ∧
      chain.Yields problem solution.plan offer := by
  obtain ⟨chain, inAll, yields⟩ := (Chain.lists_all problem solution).exists_of_mem member
  exact ⟨chain, Chain.applies_of_mem_all inAll, yields⟩

/-! Offers one after the other. -/

theorem Offered.length_routes_le (offered : Offered problem solution offer) (vehicle : Vehicle) :
    (offer.candidate.plan.routes vehicle).length ≤ (solution.plan.routes vehicle).length := by
  rcases offered with reversal | exchange | relocation
  · exact (length_routes_of_reversal reversal vehicle).le
  · exact (length_routes_of_tailExchange exchange vehicle).le
  · obtain ⟨chain, ⟨-, apart, _, _, _, holds, -⟩, yields⟩ := exists_chain_of_relocation relocation
    exact Nat.le.intro (yields.length_routes apart holds vehicle)

theorem Reaches.length_routes_le (reaches : Reaches problem first final) (vehicle : Vehicle) :
    (final.plan.routes vehicle).length ≤ (first.plan.routes vehicle).length := by
  induction reaches with
  | refl => exact Nat.le_refl _
  | tail _ taken ih =>
    obtain ⟨offer, offered, rfl⟩ := taken
    exact (offered.length_routes_le vehicle).trans ih

inductive Constructed [Ranked K] (problem : Problem K) (solution : Solution K) : Prop where
  | nearest {distances : DistanceTable K}
      (made : NearestNeighbor.construct problem distances = .ok (some solution))
  | dealt {σ : Type} [RandomSource σ] {source left : σ}
      (made : RandomDeal.construct problem source = .ok (some solution, left))

theorem Constructed.length_routes_le [Ranked K] (constructed : Constructed problem solution)
    (vehicle : Vehicle) : (solution.plan.routes vehicle).length ≤ 1 := by
  cases constructed with
  | nearest made => exact NearestNeighbor.length_routes_construct made vehicle
  | dealt made => exact RandomDeal.length_routes_construct made vehicle

/-- A move within a route or between the tails of two leaves every vehicle as many routes as it
had, and so does a chain, but that its giver has one route less just if the customer was alone on
it. So along any moves the routes of a vehicle do not grow in number: who is idle stays idle, and
who has at most one route, as in a constructed solution, never has two. All that any search may
hold is met along such moves, so what a tabu search holds after any number of iterations is. -/
theorem routes_never_grow [Scalar K] [Ranked K] (problem : Problem K) :
    (∀ (solution : Solution K) (offer : Offer K),
      (offer ∈ (TwoOpt.reversals problem solution).items ∨
        offer ∈ (TwoOpt.tailExchanges problem solution).items → ∀ vehicle,
          (offer.candidate.plan.routes vehicle).length =
            (solution.plan.routes vehicle).length) ∧
      (offer ∈ (EjectionChain.relocations problem solution).items →
        ∃ chain : Chain, chain.Applies problem solution.plan ∧
          chain.Yields problem solution.plan offer) ∧
      ∀ (chain : Chain) (giver : Route), chain.Applies problem solution.plan →
        chain.Yields problem solution.plan offer →
          solution.plan.occupant? chain.giver = some giver → ∀ vehicle,
            (offer.candidate.plan.routes vehicle).length +
              (if vehicle = chain.giver.vehicle ∧ giver.size = 1 then 1 else 0) =
                (solution.plan.routes vehicle).length) ∧
    (∀ first final : Solution K, Reaches problem first final →
      (∀ vehicle, (final.plan.routes vehicle).length ≤ (first.plan.routes vehicle).length) ∧
      (∀ vehicle, first.plan.routes vehicle = [] → final.plan.routes vehicle = []) ∧
      ((∀ vehicle, (first.plan.routes vehicle).length ≤ 1) ∨ Constructed problem first →
        ∀ vehicle, (final.plan.routes vehicle).length ≤ 1)) ∧
    (∀ (first solution : Solution K) (cost : K),
      Held (Move.neighbors problem) first solution cost → Reaches problem first solution) ∧
    ∀ (config : Tabu.Config) (iterations : Nat) (first : Solution K) (state : Tabu.State K),
      Tabu.run config (Move.neighbors problem) iterations 0 (Tabu.start first) = .ok state →
        Reaches problem first state.current ∧ Reaches problem first state.best := by
  refine ⟨fun solution offer => ⟨?_, exists_chain_of_relocation, ?_⟩, ?_, ?_, ?_⟩
  · rintro (reversal | exchange)
    · exact length_routes_of_reversal reversal
    · exact length_routes_of_tailExchange exchange
  · intro chain giver applies yields holds
    exact yields.length_routes applies.2.1 holds
  · intro first final reaches
    have fewer := reaches.length_routes_le
    refine ⟨fewer, fun vehicle idle => ?_, fun single vehicle => ?_⟩
    · have none := fewer vehicle
      rwa [idle, List.length_nil, Nat.le_zero, List.length_eq_zero_iff] at none
    · have before : (first.plan.routes vehicle).length ≤ 1 :=
        single.elim (fun each => each vehicle) fun constructed =>
          constructed.length_routes_le vehicle
      exact (fewer vehicle).trans before
  · exact fun first solution cost held => held.reaches.1
  · intro config iterations first state done
    have holds := Tabu.run_holds (Tabu.State.holds_start _ first) done
    obtain ⟨_, current⟩ := holds.current
    exact ⟨current.reaches.1, holds.best.reaches.1⟩

theorem routes_never_grow_three_vehicles :
    let problem : Problem Binary64 :=
      ⟨[.depot 0 0, ⟨1, 0, 1, false⟩, ⟨2, 1, 0, true⟩, ⟨3, 1, 1, true⟩], 2, 1, 0, fun _ => 0⟩
    let first := problem.assess ⟨[[.truck [1]], [.truck [2]]], [[.drone [3]]]⟩
    let final : Plan := ⟨[[], [.truck [1]]], [[.drone [2, 3]]]⟩
    (final.routes (.truck 0)).length + 1 = (first.plan.routes (.truck 0)).length ∧
      (∃ offer, offer ∈ (EjectionChain.relocations problem first).items ∧
        offer.candidate.plan = final ∧
        (∃ chain : Chain, chain.Applies problem first.plan ∧
          chain.Yields problem first.plan offer) ∧
        ∀ vehicle, (offer.candidate.plan.routes vehicle).length ≤ 1) ∧
      ∃ state, Tabu.run {} (Move.neighbors problem) 9 0 (Tabu.start first) = .ok state ∧
        Reaches problem first state.current ∧ Reaches problem first state.best := by
  intro problem first final
  obtain ⟨offers, runs, held, searches⟩ := routes_never_grow problem
  let chain : Chain := ⟨⟨.truck 0, 0⟩, ⟨.truck 1, 0⟩, ⟨.drone 0, 0⟩, 0, 0, 0, 0⟩
  have applies : chain.Applies problem first.plan :=
    ⟨by decide, by decide, .truck [1], .truck [2], .drone [3], rfl, rfl, rfl, ⟨1, rfl, by decide⟩,
      ⟨2, rfl, by decide⟩, by decide, by decide⟩
  have yields : chain.Yields problem first.plan ⟨problem.assess final, .trivial⟩ :=
    ⟨.truck [1], .truck [2], .drone [3], 1, 2, none, .truck [1], .drone [2, 3], rfl, rfl, rfl, rfl,
      rfl, rfl, rfl, rfl, rfl, rfl, rfl, rfl⟩
  have fewer := (offers first _).2.2 chain (.truck [1]) applies yields rfl (.truck 0)
  have planned : final ∈ (EjectionChain.relocations problem first).items.map
      fun offer => offer.candidate.plan := by decide +kernel
  obtain ⟨offer, listed, same⟩ := List.mem_map.1 planned
  have reaches : Reaches problem first offer.candidate := .single ⟨offer, .inr (.inr listed), rfl⟩
  have single : ∀ vehicle, (first.plan.routes vehicle).length ≤ 1 := by
    rintro ((_ | _ | _) | (_ | _)) <;> simp [first, Problem.assess, Plan.routes, Plan.lists,
      Vehicle.kind, Vehicle.index]
  have feasible : problem.violations first = [] := by decide
  have begun := Tabu.State.holds_start (Move.neighbors problem) first
  obtain ⟨state, done⟩ := Tabu.run_ends {} begun (fun _ _ => Held.neighbors_eq_ok feasible) 9 0
  exact ⟨fewer, ⟨offer, listed, same, (offers first offer).2.1 listed,
    (runs first _ reaches).2.2 (.inl single)⟩, state, done, (searches {} 9 first state done).1,
    held first _ _ (Tabu.run_holds begun done).best⟩

end TruckDrone
