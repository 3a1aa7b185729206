import TruckDrone.Binary64
import TruckDrone.Neighborhood.EjectionChain
import TruckDrone.Proofs.Admission
import TruckDrone.Proofs.Neighborhood.Exploration
import TruckDrone.Proofs.Neighborhood.Order
import TruckDrone.Proofs.Route
import TruckDrone.Proofs.Sequence
import TruckDrone.Violation

/-! Ejection chains over three routes, one by one: which there are, how often each is offered,
and what it changes. -/

set_option autoImplicit false

namespace TruckDrone

open Sequence Sweep

variable {K : Type}

/-- The giver hands over its customer at position `given`, counted from 0, and the relay the one
at `passed`. In the relay the new customer ends up at `arrival`, in the taker at `landing`. -/
structure Chain where
  giver : Slot
  relay : Slot
  taker : Slot
  given : Nat
  passed : Nat
  arrival : Nat
  landing : Nat
  deriving DecidableEq, Repr

namespace Chain

def giverBody (chain : Chain) (giver : Route) : List Nat := giver.body.eraseIdx chain.given

def relayBody (chain : Chain) (relay : Route) (x : Nat) : List Nat :=
  (relay.body.eraseIdx chain.passed).insertIdx chain.arrival x

def takerBody (chain : Chain) (taker : Route) (y : Nat) : List Nat :=
  taker.body.insertIdx chain.landing y

def Apart (giver relay taker : Slot) : Prop := giver ≠ relay ∧ relay ≠ taker ∧ taker ≠ giver

instance (giver relay taker : Slot) : Decidable (Apart giver relay taker) :=
  inferInstanceAs (Decidable (giver ≠ relay ∧ relay ≠ taker ∧ taker ≠ giver))

def Applies (problem : Problem K) (plan : Plan) (chain : Chain) : Prop :=
  (chain.giver.vehicle ∈ problem.fleet ∧ chain.relay.vehicle ∈ problem.fleet ∧
    chain.taker.vehicle ∈ problem.fleet) ∧
  Apart chain.giver chain.relay chain.taker ∧
  ∃ a b c, plan.occupant? chain.giver = some a ∧ plan.occupant? chain.relay = some b ∧
    plan.occupant? chain.taker = some c ∧
    (∃ x, a.body[chain.given]? = some x ∧ problem.suits chain.relay.vehicle x = true) ∧
    (∃ y, b.body[chain.passed]? = some y ∧ problem.suits chain.taker.vehicle y = true) ∧
    chain.arrival < b.size ∧ chain.landing ≤ c.size

def Leaves (chain : Chain) (giver : Route) (left : Option Route) : Prop :=
  if giver.size = 1 then left = none
  else ∃ rest, left = some rest ∧ rest.kind = chain.giver.vehicle.kind ∧
    rest.body = chain.giverBody giver

/-- The candidate has the three routes so changed, of the kinds of their vehicles, and is as
before elsewhere. A chain has no edge. -/
def Yields (problem : Problem K) (plan : Plan) (chain : Chain) (offer : Offer K) : Prop :=
  ∃ a b c x y left newRelay newTaker, plan.occupant? chain.giver = some a ∧
    plan.occupant? chain.relay = some b ∧ plan.occupant? chain.taker = some c ∧
    a.body[chain.given]? = some x ∧ b.body[chain.passed]? = some y ∧ chain.Leaves a left ∧
    newRelay.kind = chain.relay.vehicle.kind ∧ newRelay.body = chain.relayBody b x ∧
    newTaker.kind = chain.taker.vehicle.kind ∧ newTaker.body = chain.takerBody c y ∧
    offer.candidate = problem.assess (plan.replace
      [(chain.relay, some newRelay), (chain.taker, some newTaker), (chain.giver, left)]) ∧
    offer.edge = .trivial

/-- The chains over three routes. The loops count `arrival` before the passed customer has left. -/
def ofRoutes (problem : Problem K) (giver relay taker : Slot × Route) : List Chain :=
  (List.range giver.2.size).flatMap fun given =>
    if (giver.2.body[given]?).any (problem.suits relay.1.vehicle) then
      (List.range (relay.2.size + 1)).flatMap fun arrival =>
        (List.range relay.2.size).flatMap fun passed =>
          if (relay.2.body[passed]?).any (problem.suits taker.1.vehicle) then
            (List.range (taker.2.size + 1)).flatMap fun landing =>
              [⟨giver.1, relay.1, taker.1, given, passed, settledAt arrival passed, landing⟩]
          else []
    else []

def trios (problem : Problem K) (plan : Plan) :
    List ((Slot × Route) × (Slot × Route) × (Slot × Route)) :=
  let held := Violation.held problem plan
  (held.product (held.product held)).filter fun (giver, relay, taker) =>
    Apart giver.1 relay.1 taker.1

def all (problem : Problem K) (plan : Plan) : List Chain :=
  problem.fleet.flatMap fun u => problem.fleet.flatMap fun v => problem.fleet.flatMap fun w =>
    (plan.slots u).flatMap fun giver => (plan.slots v).flatMap fun relay =>
      if giver.1 != relay.1 then
        (plan.slots w).flatMap fun taker =>
          if relay.1 != taker.1 && taker.1 != giver.1 then ofRoutes problem giver relay taker
          else []
      else []

/-! The three routes that a chain makes. -/

theorem served_eraseIdx {route : Route} {position : Nat} :
    ∀ id ∈ route.body.eraseIdx position, id ≠ depotId :=
  fun _ member => Route.ne_depot (List.mem_of_mem_eraseIdx member)

theorem served_insertIdx {ids : List Nat} (served : ∀ id ∈ ids, id ≠ depotId) {position item : Nat}
    (customer : item ≠ depotId) : ∀ id ∈ ids.insertIdx position item, id ≠ depotId := by
  intro id member
  by_cases inside : position ≤ ids.length
  · rcases (List.mem_insertIdx inside).1 member with rfl | other
    · exact customer
    · exact served id other
  · rw [List.insertIdx_of_length_lt (by omega)] at member
    exact served id member

theorem insertIdx_ne_nil {ids : List Nat} {position : Nat} (inside : position ≤ ids.length)
    (item : Nat) : ids.insertIdx position item ≠ [] := by
  apply List.ne_nil_of_length_pos
  rw [List.length_insertIdx_of_le_length inside]
  omega

theorem room_of_arrives {chain : Chain} {relay : Route} {y : Nat}
    (passes : relay.body[chain.passed]? = some y) (arrives : chain.arrival < relay.size) :
    chain.arrival ≤ (relay.body.eraseIdx chain.passed).length := by
  rw [List.length_eraseIdx_of_lt (List.getElem?_eq_some_iff.1 passes).1]
  exact Nat.le_sub_one_of_lt arrives

theorem leaves_assigned (chain : Chain) {giver : Route} (inside : chain.given < giver.size) :
    chain.Leaves giver
      (Plan.assigned chain.giver.vehicle (depotId :: chain.giverBody giver ++ [depotId])) := by
  have length : (chain.giverBody giver).length = giver.size - 1 :=
    List.length_eraseIdx_of_lt inside
  unfold Leaves
  by_cases last : giver.size = 1
  · have empty : chain.giverBody giver = [] := List.length_eq_zero_iff.1 (by omega)
    rw [if_pos last, empty]
    rfl
  · have someone : chain.giverBody giver ≠ [] := by
      apply List.ne_nil_of_length_pos
      omega
    rw [if_neg last]
    exact ⟨_, Plan.assigned_of_ne_nil someone served_eraseIdx, rfl,
      Route.body_ofIds_of_served served_eraseIdx⟩

/-- Once the routes are found and the customers admitted, a chain is never refused: it is the
offer that it yields. -/
theorem exists_offer (problem : Problem K) {plan : Plan} (chain : Chain) {a b c : Route} {x y : Nat}
    (apart : Apart chain.giver chain.relay chain.taker)
    (holdsGiver : plan.occupant? chain.giver = some a)
    (holdsRelay : plan.occupant? chain.relay = some b)
    (holdsTaker : plan.occupant? chain.taker = some c)
    (gives : a.body[chain.given]? = some x) (passes : b.body[chain.passed]? = some y)
    (arrives : chain.arrival < b.size) (lands : chain.landing ≤ c.size) :
    ∃ offer : Offer K, chain.Yields problem plan offer ∧ (do
      let step ← lift (plan.assign chain.relay (depotId :: chain.relayBody b x ++ [depotId]))
      let step ← lift (step.assign chain.taker (depotId :: chain.takerBody c y ++ [depotId]))
      let final ← lift
        (step.assign chain.giver (depotId :: chain.giverBody a ++ [depotId]))
      return (⟨problem.assess final, .trivial⟩ : Offer K)) = pure offer := by
  obtain ⟨giverRelay, relayTaker, takerGiver⟩ := apart
  have inGiver := (List.getElem?_eq_some_iff.1 gives).1
  have servedRelay : ∀ id ∈ chain.relayBody b x, id ≠ depotId :=
    served_insertIdx served_eraseIdx (Route.ne_depot (List.mem_of_getElem? gives))
  have servedTaker : ∀ id ∈ chain.takerBody c y, id ≠ depotId :=
    served_insertIdx (fun _ => Route.ne_depot) (Route.ne_depot (List.mem_of_getElem? passes))
  have someRelay : chain.relayBody b x ≠ [] := insertIdx_ne_nil (room_of_arrives passes arrives) x
  have someTaker : chain.takerBody c y ≠ [] := insertIdx_ne_nil lands y
  let newRelay := Route.ofIds chain.relay.vehicle.kind (chain.relayBody b x)
  let newTaker := Route.ofIds chain.taker.vehicle.kind (chain.takerBody c y)
  let left := Plan.assigned chain.giver.vehicle (depotId :: chain.giverBody a ++ [depotId])
  -- Neither of the first two assignments drops a route, so the slots that follow stay in place.
  have keepsRelay : Plan.Keeps [(chain.relay, some newRelay)] := by
    simp [Plan.Keeps]
  have keepsBoth : Plan.Keeps [(chain.relay, some newRelay), (chain.taker, some newTaker)] := by
    simp [Plan.Keeps]
  have takerHeld : (plan.replace [(chain.relay, some newRelay)]).occupant? chain.taker =
      some c := by
    rw [Plan.occupant?_replace_of_not_listed keepsRelay _ (by simpa using relayTaker.symm),
      holdsTaker]
  have giverHeld : (plan.replace [(chain.relay, some newRelay), (chain.taker, some newTaker)]
      ).occupant? chain.giver = some a := by
    rw [Plan.occupant?_replace_of_not_listed keepsBoth _
      (by simp [giverRelay, takerGiver.symm]), holdsGiver]
  have first : plan.assign chain.relay (depotId :: chain.relayBody b x ++ [depotId]) =
      .ok (plan.replace [(chain.relay, some newRelay)]) :=
    Plan.assign_eq_replace_some holdsRelay someRelay servedRelay
  have second : (plan.replace [(chain.relay, some newRelay)]).assign chain.taker
      (depotId :: chain.takerBody c y ++ [depotId]) =
        .ok (plan.replace [(chain.relay, some newRelay), (chain.taker, some newTaker)]) := by
    rw [Plan.assign_eq_replace_some takerHeld someTaker servedTaker,
      Plan.replace_replace keepsRelay (by simpa using relayTaker)]
    rfl
  have third : (plan.replace [(chain.relay, some newRelay), (chain.taker, some newTaker)]).assign
      chain.giver (depotId :: chain.giverBody a ++ [depotId]) =
        .ok (plan.replace [(chain.relay, some newRelay), (chain.taker, some newTaker),
          (chain.giver, left)]) := by
    rw [Plan.assign_eq_replace giverHeld,
      Plan.replace_replace keepsBoth (by simp [giverRelay.symm, takerGiver])]
    rfl
  refine ⟨⟨problem.assess (plan.replace [(chain.relay, some newRelay),
    (chain.taker, some newTaker), (chain.giver, left)]), .trivial⟩, ⟨a, b, c, x, y, left, newRelay,
    newTaker, holdsGiver, holdsRelay, holdsTaker, gives, passes, leaves_assigned chain inGiver, rfl,
    Route.body_ofIds_of_served servedRelay, rfl, Route.body_ofIds_of_served servedTaker, rfl,
    rfl⟩, ?_⟩
  rw [first, lift_ok_bind, second, lift_ok_bind, third, lift_ok_bind]

/-! Which chains are offered. -/

/-- Whether a vehicle may serve someone on a route of the plan is a fault only if the table does
not know whom. -/
theorem lists_admits_bind {problem : Problem K} {plan : Plan} {slot : Slot} {route : Route}
    (occupied : plan.occupant? slot = some route) {id : Nat} (member : id ∈ route.body)
    {vehicle : Vehicle} {moves : List Chain} {body : Unit → Sweep (Offer K)}
    (passes : Lists (problem.Knows plan) (Yields problem plan) moves (body ())) :
    Lists (problem.Knows plan) (Yields problem plan)
      (if problem.suits vehicle id then moves else [])
      (lift (problem.admits vehicle id) >>= fun answer => keepIf answer >>= body) := by
  have served : id ≠ depotId := Route.ne_depot member
  apply lists_lift_bind
  · exact fun known => Problem.admits_ne_error served (known.lt_size occupied member)
  · intro answer asked
    rw [Problem.eq_suits_of_admits served asked]
    exact lists_keepIf_bind fun _ => passes

theorem lists_ofRoutes {problem : Problem K} {plan : Plan} {giver relay taker : Slot × Route}
    (apart : Apart giver.1 relay.1 taker.1)
    (holdsGiver : plan.occupant? giver.1 = some giver.2)
    (holdsRelay : plan.occupant? relay.1 = some relay.2)
    (holdsTaker : plan.occupant? taker.1 = some taker.2) :
    Lists (problem.Knows plan) (Yields problem plan) (ofRoutes problem giver relay taker)
      (EjectionChain.chains problem plan giver relay taker) := by
  obtain ⟨giverSlot, a⟩ := giver
  obtain ⟨relaySlot, b⟩ := relay
  obtain ⟨takerSlot, c⟩ := taker
  have giverBound : a.stops.length - 1 = a.size + 1 := by
    rw [Route.length_stops]
    omega
  unfold EjectionChain.chains
  dsimp only
  rw [giverBound, Route.length_stops, Route.length_stops]
  -- The first question is about the customer that the giver hands over.
  apply lists_span_bind
  intro given inGiver
  have gives := List.getElem?_eq_getElem inGiver
  generalize a.body[given] = x at gives
  rw [Route.stops, entry_cons_append _ _ gives, lift_ok_bind, gives, Option.any_some]
  apply lists_admits_bind holdsGiver (List.mem_of_getElem? gives)
  rw [eraseAt_cons_append _ _ inGiver, lift_ok_bind]
  -- Departures are positions of the grown sequence, sources those of the relay's own body.
  apply lists_span_bind
  intro arrival inArrival
  rw [← flatMap_sourceOf (Nat.le_of_lt_succ inArrival)]
  apply lists_span_bind
  intro departure inDeparture
  have distinct : (arrival + 1 != departure + 1) = (arrival != departure) := by
    simp [bne]
  rw [distinct, sourceOf_add_one]
  apply lists_keepIf_bind
  intro different
  have inRelay : sourceOf arrival departure < b.size := sourceOf_lt (Nat.le_of_lt_succ inArrival)
    (Nat.le_of_lt_succ inDeparture) (bne_iff_ne.1 different)
  have passes := List.getElem?_eq_getElem inRelay
  generalize b.body[sourceOf arrival departure] = y at passes
  rw [Route.stops, entry_cons_append _ _ passes, lift_ok_bind, passes, Option.any_some]
  apply lists_admits_bind holdsRelay (List.mem_of_getElem? passes)
  rw [insertAt_cons_append _ _ _ (Nat.le_of_lt_succ inArrival), lift_ok_bind]
  -- First in and then out is first out and then in, at the settled position.
  rw [eraseAt_insertIdx_cons_append _ _ _ (Nat.le_of_lt_succ inArrival)
    (Nat.le_of_lt_succ inDeparture) (bne_iff_ne.1 different), lift_ok_bind]
  apply lists_span_bind
  intro landing inLanding
  obtain ⟨offer, yields, same⟩ := exists_offer problem ⟨giverSlot, relaySlot, takerSlot, given,
    sourceOf arrival departure, settledAt arrival (sourceOf arrival departure), landing⟩ apart
    holdsGiver holdsRelay holdsTaker gives passes
    (settledAt_lt (Nat.le_of_lt_succ inArrival) inRelay) (Nat.le_of_lt_succ inLanding)
  dsimp only [giverBody, relayBody, takerBody] at same
  rw [Route.stops, insertAt_cons_append _ _ _ (Nat.le_of_lt_succ inLanding), lift_ok_bind, same]
  exact lists_pure yields

theorem lists_all (problem : Problem K) (solution : Solution K) :
    Lists (problem.Knows solution.plan) (Yields problem solution.plan)
      (all problem solution.plan) (EjectionChain.relocations problem solution) := by
  refine lists_each_bind fun u _ => lists_each_bind fun v _ => lists_each_bind fun w _ =>
    lists_each_bind fun giver inGiver => lists_each_bind fun relay inRelay =>
      lists_keepIf_bind fun first => lists_each_bind fun taker inTaker =>
        lists_keepIf_bind fun others => ?_
  rw [Bool.and_eq_true, bne_iff_ne, bne_iff_ne] at others
  exact lists_ofRoutes ⟨bne_iff_ne.1 first, others⟩ (Plan.mem_slots.1 inGiver).2
    (Plan.mem_slots.1 inRelay).2 (Plan.mem_slots.1 inTaker).2

/-! Which chains there are, and how often each is listed. -/

theorem mem_trios {problem : Problem K} {plan : Plan} {giver relay taker : Slot × Route} :
    (giver, relay, taker) ∈ trios problem plan ↔ (giver ∈ Violation.held problem plan ∧
      relay ∈ Violation.held problem plan ∧ taker ∈ Violation.held problem plan) ∧
      Apart giver.1 relay.1 taker.1 := by
  rw [trios, List.mem_filter, List.pair_mem_product, List.pair_mem_product, decide_eq_true_iff]

theorem nodup_trios (problem : Problem K) (plan : Plan) : (trios problem plan).Nodup := by
  have distinct := Violation.nodup_held problem plan
  exact (distinct.product (distinct.product distinct)).filter _

theorem all_perm (problem : Problem K) (plan : Plan) :
    (all problem plan).Perm ((trios problem plan).flatMap fun (giver, relay, taker) =>
      ofRoutes problem giver relay taker) := by
  let found (giver relay taker : Slot × Route) : List Chain :=
    if Apart giver.1 relay.1 taker.1 then ofRoutes problem giver relay taker else []
  have loops : all problem plan = problem.fleet.flatMap fun u => problem.fleet.flatMap fun v =>
      problem.fleet.flatMap fun w => (plan.slots u).flatMap fun giver =>
        (plan.slots v).flatMap fun relay => (plan.slots w).flatMap (found giver relay) := by
    refine List.flatMap_congr fun u _ => List.flatMap_congr fun v _ => List.flatMap_congr fun w _ =>
      List.flatMap_congr fun giver _ => List.flatMap_congr fun relay _ => ?_
    by_cases same : giver.1 = relay.1
    · have none : ∀ taker ∈ plan.slots w, found giver relay taker = [] := fun taker _ =>
        if_neg fun apart => apart.1 same
      rw [List.flatMap_congr none]
      simp [same]
    · rw [if_pos (bne_iff_ne.2 same)]
      apply List.flatMap_congr
      intro taker _
      simp [found, Apart, same]
  have grouped : ((trios problem plan).flatMap fun (giver, relay, taker) =>
      ofRoutes problem giver relay taker) = problem.fleet.flatMap fun u =>
        (plan.slots u).flatMap fun giver => problem.fleet.flatMap fun v =>
          (plan.slots v).flatMap fun relay => problem.fleet.flatMap fun w =>
            (plan.slots w).flatMap (found giver relay) := by
    rw [trios, flatMap_filter]
    simp only [List.product, List.flatMap_assoc, List.flatMap_map, Violation.held,
      decide_eq_true_eq]
    rfl
  -- Each loop over slots moves inwards, past those over vehicles that ran before it.
  rw [loops, grouped]
  refine List.Perm.flatMap_left _ fun u _ => ?_
  refine (List.Perm.flatMap_left _ fun v _ => flatMap_swap ..).trans ?_
  refine (flatMap_swap ..).trans ?_
  exact List.Perm.flatMap_left _ fun giver _ => List.Perm.flatMap_left _ fun v _ =>
    flatMap_swap ..

theorem of_mem_ofRoutes {problem : Problem K} {giver relay taker : Slot × Route} {chain : Chain}
    (member : chain ∈ ofRoutes problem giver relay taker) :
    chain.giver = giver.1 ∧ chain.relay = relay.1 ∧ chain.taker = taker.1 ∧
      (∃ x, giver.2.body[chain.given]? = some x ∧ problem.suits relay.1.vehicle x = true) ∧
      (∃ y, relay.2.body[chain.passed]? = some y ∧ problem.suits taker.1.vehicle y = true) ∧
      chain.arrival < relay.2.size ∧ chain.landing ≤ taker.2.size := by
  simp only [ofRoutes, List.mem_flatMap, List.mem_range, List.mem_ite_nil_right,
    List.mem_singleton, Option.any_eq_true] at member
  obtain ⟨given, -, ⟨x, gives, suitsGiven⟩, arrival, inArrival, passed, inPassed,
    ⟨y, passes, suitsPassed⟩, landing, inLanding, rfl⟩ := member
  exact ⟨rfl, rfl, rfl, ⟨x, gives, suitsGiven⟩, ⟨y, passes, suitsPassed⟩,
    settledAt_lt (Nat.le_of_lt_succ inArrival) inPassed, Nat.le_of_lt_succ inLanding⟩

theorem count_ofRoutes {problem : Problem K} (giver relay taker : Slot × Route)
    {given passed arrival landing x y : Nat} (gives : giver.2.body[given]? = some x)
    (suitsGiven : problem.suits relay.1.vehicle x = true)
    (passes : relay.2.body[passed]? = some y)
    (suitsPassed : problem.suits taker.1.vehicle y = true)
    (arrives : arrival < relay.2.size) (lands : landing ≤ taker.2.size) :
    (ofRoutes problem giver relay taker).count
      ⟨giver.1, relay.1, taker.1, given, passed, arrival, landing⟩ =
        if arrival = passed then 2 else 1 := by
  have inGiver : given ∈ List.range giver.2.size :=
    List.mem_range.2 (List.getElem?_eq_some_iff.1 gives).1
  have inRelay : passed ∈ List.range relay.2.size :=
    List.mem_range.2 (List.getElem?_eq_some_iff.1 passes).1
  have inTaker : landing ∈ List.range (taker.2.size + 1) :=
    List.mem_range.2 (Nat.lt_succ_of_le lands)
  let chain : Chain := ⟨giver.1, relay.1, taker.1, given, passed, arrival, landing⟩
  have landed : ∀ early, ((List.range (taker.2.size + 1)).flatMap fun landing =>
      [(⟨giver.1, relay.1, taker.1, given, passed, early, landing⟩ : Chain)]).count chain =
        if early = arrival then 1 else 0 := by
    intro early
    have only : ∀ place ∈ List.range (taker.2.size + 1),
        chain ∈ [(⟨giver.1, relay.1, taker.1, given, passed, early, place⟩ : Chain)] →
          place = landing := by
      intro place _ member
      exact (congrArg Chain.landing (List.mem_singleton.1 member)).symm
    rw [count_flatMap_of_only landing only,
      List.count_eq_one_of_mem List.nodup_range inTaker]
    simp [chain, List.count_singleton]
  have arrived : ∀ early ∈ List.range (relay.2.size + 1),
      ((List.range relay.2.size).flatMap fun passed =>
        if (relay.2.body[passed]?).any (problem.suits taker.1.vehicle) then
          (List.range (taker.2.size + 1)).flatMap fun landing =>
            [(⟨giver.1, relay.1, taker.1, given, passed, settledAt early passed, landing⟩ : Chain)]
        else []).count chain =
          (if settledAt early passed = arrival then [chain] else []).count chain := by
    intro early _
    rw [count_flatMap_of_only passed fun place _ member => ?_,
      List.count_eq_one_of_mem List.nodup_range inRelay, Nat.one_mul, passes, Option.any_some,
      if_pos suitsPassed, landed]
    · split <;> simp
    · simp only [List.mem_ite_nil_right, List.mem_flatMap, List.mem_singleton] at member
      obtain ⟨-, _, -, same⟩ := member
      exact (congrArg Chain.passed same).symm
  -- Being put in right before the passed customer and right after it settle alike.
  have settles : ((List.range (relay.2.size + 1)).flatMap fun early =>
      if settledAt early passed = arrival then [chain] else []) =
        ((List.range (relay.2.size + 1)).map fun early => settledAt early passed).flatMap
          fun settled => if settled = arrival then [chain] else [] := by
    rw [List.flatMap_map]
  unfold ofRoutes
  rw [count_flatMap_of_only given fun place _ member => ?_,
    List.count_eq_one_of_mem List.nodup_range inGiver, Nat.one_mul, gives, Option.any_some,
    if_pos suitsGiven, count_flatMap_congr arrived, settles,
    count_flatMap_of_only arrival fun _ _ member => (List.mem_ite_nil_right.1 member).1,
    count_settledAt arrives (List.mem_range.1 inRelay), if_pos rfl, List.count_singleton_self,
    Nat.mul_one]
  simp only [List.mem_ite_nil_right, List.mem_flatMap, List.mem_singleton] at member
  obtain ⟨-, _, -, _, -, -, _, -, same⟩ := member
  exact (congrArg Chain.given same).symm

theorem applies_of_mem_all {problem : Problem K} {plan : Plan} {chain : Chain}
    (member : chain ∈ all problem plan) : chain.Applies problem plan := by
  obtain ⟨⟨⟨giver, a⟩, ⟨relay, b⟩, ⟨taker, c⟩⟩, inTrios, found⟩ :=
    List.mem_flatMap.1 ((all_perm problem plan).mem_iff.1 member)
  obtain ⟨⟨inGiver, inRelay, inTaker⟩, apart⟩ := mem_trios.1 inTrios
  obtain ⟨ownsGiver, holdsGiver⟩ := Violation.mem_held.1 inGiver
  obtain ⟨ownsRelay, holdsRelay⟩ := Violation.mem_held.1 inRelay
  obtain ⟨ownsTaker, holdsTaker⟩ := Violation.mem_held.1 inTaker
  obtain ⟨rfl, rfl, rfl, gives, passes, arrives, lands⟩ := of_mem_ofRoutes found
  exact ⟨⟨ownsGiver, ownsRelay, ownsTaker⟩, apart, a, b, c, holdsGiver, holdsRelay, holdsTaker,
    gives, passes, arrives, lands⟩

theorem count_all {problem : Problem K} {plan : Plan} {chain : Chain}
    (applies : chain.Applies problem plan) :
    (all problem plan).count chain = if chain.arrival = chain.passed then 2 else 1 := by
  obtain ⟨⟨ownsGiver, ownsRelay, ownsTaker⟩, apart, a, b, c, holdsGiver, holdsRelay, holdsTaker,
    ⟨x, gives, suitsGiven⟩, ⟨y, passes, suitsPassed⟩, arrives, lands⟩ := applies
  have member : ((chain.giver, a), (chain.relay, b), (chain.taker, c)) ∈ trios problem plan :=
    mem_trios.2 ⟨⟨Violation.mem_held.2 ⟨ownsGiver, holdsGiver⟩,
      Violation.mem_held.2 ⟨ownsRelay, holdsRelay⟩,
      Violation.mem_held.2 ⟨ownsTaker, holdsTaker⟩⟩, apart⟩
  rw [(all_perm problem plan).count_eq,
    count_flatMap_of_only ((chain.giver, a), (chain.relay, b), (chain.taker, c)),
    List.count_eq_one_of_mem (nodup_trios problem plan) member, Nat.one_mul]
  · exact count_ofRoutes (chain.giver, a) (chain.relay, b) (chain.taker, c) gives suitsGiven passes
      suitsPassed arrives lands
  · rintro ⟨⟨giver, a'⟩, ⟨relay, b'⟩, ⟨taker, c'⟩⟩ inTrios found
    obtain ⟨⟨inGiver, inRelay, inTaker⟩, -⟩ := mem_trios.1 inTrios
    obtain ⟨rfl, rfl, rfl, -⟩ := of_mem_ofRoutes found
    -- A slot holds one route only.
    cases holdsGiver.symm.trans (Violation.mem_held.1 inGiver).2
    cases holdsRelay.symm.trans (Violation.mem_held.1 inRelay).2
    cases holdsTaker.symm.trans (Violation.mem_held.1 inTaker).2
    rfl

theorem length_ofRoutes (problem : Problem K) (giver relay taker : Slot × Route) :
    (ofRoutes problem giver relay taker).length =
      giver.2.body.countP (problem.suits relay.1.vehicle) * ((relay.2.size + 1) *
        (relay.2.body.countP (problem.suits taker.1.vehicle) * (taker.2.size + 1))) := by
  have passes : ∀ given arrival, ((List.range relay.2.size).flatMap fun passed =>
      if (relay.2.body[passed]?).any (problem.suits taker.1.vehicle) then
        (List.range (taker.2.size + 1)).flatMap fun landing => [(⟨giver.1, relay.1, taker.1, given,
          passed, settledAt arrival passed, landing⟩ : Chain)]
      else []).length =
        relay.2.body.countP (problem.suits taker.1.vehicle) * (taker.2.size + 1) := by
    intro given arrival
    apply length_flatMap_any
    intro passed
    rw [← List.map_eq_flatMap, List.length_map, List.length_range]
  apply length_flatMap_any
  intro given
  rw [length_flatMap_of_forall (passes given), List.length_range]

theorem length_all (problem : Problem K) (plan : Plan) :
    (all problem plan).length =
      ((trios problem plan).map fun ((_, a), (relay, b), (taker, c)) =>
        a.body.countP (problem.suits relay.vehicle) * ((b.size + 1) *
          (b.body.countP (problem.suits taker.vehicle) * (c.size + 1)))).sum := by
  rw [(all_perm problem plan).length_eq, List.length_flatMap]
  congr 1
  exact List.map_congr_left fun _ _ => length_ofRoutes ..

/-- No list is added or dropped, and a vehicle that takes no part keeps its routes. -/
theorem Yields.keeps {problem : Problem K} {plan : Plan} {chain : Chain} {offer : Offer K}
    (yields : chain.Yields problem plan offer) :
    offer.candidate.plan.trucks.length = plan.trucks.length ∧
      offer.candidate.plan.drones.length = plan.drones.length ∧
      ∀ vehicle, vehicle ≠ chain.giver.vehicle → vehicle ≠ chain.relay.vehicle →
        vehicle ≠ chain.taker.vehicle →
          offer.candidate.plan.routes vehicle = plan.routes vehicle := by
  obtain ⟨_, _, _, _, _, left, newRelay, newTaker, -, -, -, -, -, -, -, -, -, -, candidate, -⟩ :=
    yields
  rw [candidate]
  refine ⟨Plan.length_trucks_replace .., Plan.length_drones_replace .., ?_⟩
  intro vehicle notGiver notRelay notTaker
  refine (Plan.routes_replace ..).trans (Plan.replaceRoutes_of_not_listed ?_ _)
  simp [notGiver.symm, notRelay.symm, notTaker.symm]

end Chain

/-- Where every id is in the table, the chains that the vehicles may carry out are offered, once
each or, where the new customer of the relay takes the place of the one it passes on, twice.
The aspiration is asked about each offer. -/
theorem EjectionChain.relocations_exact [Scalar K] (problem : Problem K) (solution : Solution K)
    (known : problem.Knows solution.plan) :
    ∃ chains : List Chain,
      List.Forall₂ (Chain.Yields problem solution.plan) chains
        (relocations problem solution).items ∧
      (∀ chain ∈ chains, chain.Applies problem solution.plan ∧
        ∀ offer : Offer K, chain.Yields problem solution.plan offer →
          offer.candidate.plan.trucks.length = solution.plan.trucks.length ∧
          offer.candidate.plan.drones.length = solution.plan.drones.length ∧
          ∀ vehicle, vehicle ≠ chain.giver.vehicle → vehicle ≠ chain.relay.vehicle →
            vehicle ≠ chain.taker.vehicle →
              offer.candidate.plan.routes vehicle = solution.plan.routes vehicle) ∧
      (∀ chain : Chain, chain.Applies problem solution.plan →
        chains.count chain = if chain.arrival = chain.passed then 2 else 1) ∧
      ∀ (aspiration : Aspiration K) (firstCall : Nat),
        (relocations problem solution).explore aspiration firstCall =
          .ok (.scan aspiration firstCall (relocations problem solution).items) ∧
        (Exploration.answers aspiration firstCall (relocations problem solution).items).length =
          ((Chain.trios problem solution.plan).map fun ((_, a), (relay, b), (taker, c)) =>
            a.body.countP (problem.suits relay.vehicle) * ((b.size + 1) *
              (b.body.countP (problem.suits taker.vehicle) * (c.size + 1)))).sum := by
  have listed := Chain.lists_all problem solution
  refine ⟨Chain.all problem solution.plan, listed.all_listed known,
    fun chain member => ⟨Chain.applies_of_mem_all member, fun _ yields => yields.keeps⟩,
    fun _ => Chain.count_all, fun aspiration firstCall => ⟨?_, ?_⟩⟩
  · exact Sweep.explore_of_clean (listed.clean known) aspiration firstCall
  · rw [Exploration.length_answers, ← (listed.all_listed known).length_eq, Chain.length_all]

theorem EjectionChain.relocations_exact_three_trucks :
    let problem : Problem Binary64 :=
      ⟨[.depot 0 0, ⟨1, 0, 1, false⟩, ⟨2, 1, 0, true⟩, ⟨3, 1, 1, true⟩], 2, 1, 0, fun _ => 0⟩
    let solution := problem.assess ⟨[[.truck [1]], [.truck [2]]], [[.drone [3]]]⟩
    problem.Knows solution.plan ∧ ∃ chains : List Chain,
      chains.count ⟨⟨.truck 0, 0⟩, ⟨.truck 1, 0⟩, ⟨.drone 0, 0⟩, 0, 0, 0, 1⟩ = 2 ∧
      List.Forall₂ (Chain.Yields problem solution.plan) chains
        (relocations problem solution).items := by
  intro problem solution
  have known : problem.Knows solution.plan := by decide
  obtain ⟨chains, yields, -, counts, -⟩ := relocations_exact problem solution known
  refine ⟨known, chains, counts _ ?_, yields⟩
  exact ⟨by decide, by decide, .truck [1], .truck [2], .drone [3], rfl, rfl, rfl,
    ⟨1, rfl, by decide⟩, ⟨2, rfl, by decide⟩, by decide, by decide⟩

end TruckDrone
