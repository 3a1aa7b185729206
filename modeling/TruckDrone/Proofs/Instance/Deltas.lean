import TruckDrone.Proofs.Exact
import TruckDrone.Proofs.Instance.Built
import TruckDrone.Proofs.Neighborhood.Reordering
import TruckDrone.Proofs.Neighborhood.TailExchange

/-! What a move changes of the lengths of routes, without rounding. All legs but those at the cuts
are travelled before and after. Within a reversed segment they are travelled the other way, so
there, and only there, both directions have to be equally long. -/

set_option autoImplicit false

namespace TruckDrone

namespace Sequence

variable {α M : Type} [AddCommMonoid M] {leg : α → α → M}

def total (leg : α → α → M) (stops : List α) : M := (List.zipWith leg stops stops.tail).sum

@[simp] theorem total_singleton (stop : α) : total leg [stop] = 0 := rfl

theorem total_cons_cons (first second : α) (rest : List α) :
    total leg (first :: second :: rest) = leg first second + total leg (second :: rest) :=
  List.sum_cons

theorem total_append {front back : List α} {last first : α} (ends : front.getLast? = some last)
    (starts : back.head? = some first) :
    total leg (front ++ back) = total leg front + leg last first + total leg back := by
  induction front with
  | nil => cases ends
  | cons head tail ih =>
    cases tail with
    | nil =>
      cases ends
      cases back with
      | nil => cases starts
      | cons next rest =>
        cases starts
        rw [total_singleton, zero_add]
        exact total_cons_cons ..
    | cons next rest =>
      rw [List.getLast?_cons_cons] at ends
      rw [List.cons_append, List.cons_append, total_cons_cons, ← List.cons_append, ih ends,
        total_cons_cons, add_assoc, add_assoc, add_assoc]

theorem total_reverse (symmetric : ∀ start finish, leg start finish = leg finish start)
    (stops : List α) : total leg stops.reverse = total leg stops := by
  induction stops with
  | nil => rfl
  | cons head tail ih =>
    cases tail with
    | nil => rfl
    | cons next rest =>
      have ends : (next :: rest).reverse.getLast? = some next := by simp
      rw [List.reverse_cons, total_append ends rfl, ih, total_singleton, add_zero, symmetric,
        total_cons_cons, add_comm]

/-- Where a segment is reversed, only the legs at its two ends are others. -/
theorem total_turn (symmetric : ∀ start finish, leg start finish = leg finish start)
    {front segment back : List α} {before first last after : α}
    (enters : front.getLast? = some before) (starts : segment.head? = some first)
    (ends : segment.getLast? = some last) (leaves : back.head? = some after) :
    total leg (front ++ segment.reverse ++ back) + (leg before first + leg last after) =
      total leg (front ++ segment ++ back) + (leg before last + leg first after) := by
  have straight : (front ++ segment).getLast? = some last := by
    rw [List.getLast?_append, ends, Option.some_or]
  have turned : (front ++ segment.reverse).getLast? = some first := by
    rw [List.getLast?_append, List.getLast?_reverse, starts, Option.some_or]
  rw [total_append turned leaves, total_append enters (List.head?_reverse.trans ends),
    total_reverse symmetric, total_append straight leaves, total_append enters starts]
  abel

theorem getLast?_take_of_getElem? {stops : List α} {position : Nat} {stop : α}
    (present : stops[position]? = some stop) :
    (stops.take (position + 1)).getLast? = some stop := by
  simp [List.getLast?_take, present]

/-- Where two sequences exchange what follows a position, the four legs at the cuts are all that
matters. -/
theorem total_exchange {a b : List α} {i j : Nat} {aLast aNext bLast bNext : α}
    (aEnds : a[i]? = some aLast) (aGoesOn : a[i + 1]? = some aNext)
    (bEnds : b[j]? = some bLast) (bGoesOn : b[j + 1]? = some bNext) :
    total leg (a.take (i + 1) ++ b.drop (j + 1)) + total leg (b.take (j + 1) ++ a.drop (i + 1)) +
        (leg aLast aNext + leg bLast bNext) =
      total leg a + total leg b + (leg aLast bNext + leg bLast aNext) := by
  have headA := getLast?_take_of_getElem? aEnds
  have headB := getLast?_take_of_getElem? bEnds
  have tailA := List.head?_drop.trans aGoesOn
  have tailB := List.head?_drop.trans bGoesOn
  have wholeA : total leg a = _ :=
    (congrArg _ (List.take_append_drop (i + 1) a)).symm.trans (total_append headA tailA)
  have wholeB : total leg b = _ :=
    (congrArg _ (List.take_append_drop (j + 1) b)).symm.trans (total_append headB tailB)
  rw [total_append headA tailB, total_append headB tailA, wholeA, wholeB]
  abel

theorem total_reverseSegment (symmetric : ∀ start finish, leg start finish = leg finish start)
    {stops : List α} {i j : Nat} (starts : 1 ≤ i) (ordered : i ≤ j)
    (ends : j + 1 < stops.length) :
    total leg (reverseSegment stops i (j - i + 1)) +
        (leg stops[i - 1] stops[i] + leg stops[j] stops[j + 1]) =
      total leg stops + (leg stops[i - 1] stops[j] + leg stops[i] stops[j + 1]) := by
  have split : stops.take i ++ (stops.drop i).take (j - i + 1) ++
      stops.drop (i + (j - i + 1)) = stops := by
    rw [List.append_assoc, ← List.drop_drop, List.take_append_drop, List.take_append_drop]
  have enters : (stops.take i).getLast? = some stops[i - 1] := by
    obtain ⟨position, rfl⟩ := Nat.exists_eq_add_of_le' starts
    exact getLast?_take_of_getElem? (List.getElem?_eq_getElem _)
  have first : ((stops.drop i).take (j - i + 1)).head? = some stops[i] := by
    rw [List.head?_take, if_neg (Nat.succ_ne_zero _), List.head?_drop]
    exact List.getElem?_eq_getElem _
  have last : ((stops.drop i).take (j - i + 1)).getLast? = some stops[j] := by
    apply getLast?_take_of_getElem?
    rw [List.getElem?_drop, Nat.add_sub_cancel' ordered]
    exact List.getElem?_eq_getElem _
  have leaves : (stops.drop (i + (j - i + 1))).head? = some stops[j + 1] := by
    rw [List.head?_drop, ← Nat.add_assoc, Nat.add_sub_cancel' ordered]
    exact List.getElem?_eq_getElem _
  have turned := total_turn symmetric enters first last leaves
  rwa [split] at turned

end Sequence

def DistanceTable.Symmetric {K : Type} (table : DistanceTable K) : Prop :=
  ∀ start finish, table.get? start finish = table.get? finish start

namespace Instance

def Numeric (inst : Instance EReal) : Prop :=
  ∀ distance ∈ inst.distances.cells, distance ≠ ⊥ ∧ distance ≠ ⊤

variable {inst : Instance EReal}

theorem routeLength_eq_total (inst : Instance EReal) (route : Route) :
    inst.routeLength route = Sequence.total inst.leg route.stops :=
  List.sum_eq_foldl.symm

theorem leg_symmetric (symmetric : inst.distances.Symmetric) (start finish : Nat) :
    inst.leg start finish = inst.leg finish start :=
  congrArg (Option.getD · Scalar.infinity) (symmetric start finish)

/-! Differences. Inside a table of numbers the lengths are numbers, and can be taken away. -/

theorem leg_number (numeric : inst.Numeric) {start finish : Nat}
    (row : start < inst.distances.size) (column : finish < inst.distances.size) :
    ∃ distance : ℝ, inst.leg start finish = distance := by
  have listed := inst.distances.place_lt row column
  obtain ⟨proper, finite⟩ := numeric _ (Vector.getElem_mem listed)
  have found : inst.leg start finish = inst.distances.cells[inst.distances.place start finish] := by
    rw [leg, DistanceTable.get?, dif_pos ⟨row, column⟩, Option.getD_some]
  exact ⟨_, found.trans (EReal.coe_toReal finite proper).symm⟩

theorem total_number (numeric : inst.Numeric) {stops : List Nat}
    (inside : ∀ id ∈ stops, id < inst.distances.size) :
    ∃ length : ℝ, Sequence.total inst.leg stops = length := by
  induction stops with
  | nil => exact ⟨0, rfl⟩
  | cons first rest ih =>
    cases rest with
    | nil => exact ⟨0, rfl⟩
    | cons second rest =>
      obtain ⟨here, within⟩ := List.forall_mem_cons.1 inside
      obtain ⟨distance, leg⟩ := leg_number numeric here (within second (List.mem_cons_self ..))
      obtain ⟨length, total⟩ := ih within
      exact ⟨distance + length, by rw [Sequence.total_cons_cons, leg, total, EReal.coe_add]⟩

theorem inside_stops (coherent : inst.Coherent) {route : Route}
    (inside : ∀ id ∈ route.body, id < inst.customers.length) :
    ∀ id ∈ route.stops, id < inst.distances.size := by
  have depot := coherent.depot_inside
  rw [coherent.table]
  simpa [Route.stops, or_imp, forall_and, depot] using inside

theorem routeLength_number (numeric : inst.Numeric) {route : Route}
    (inside : ∀ id ∈ route.stops, id < inst.distances.size) :
    ∃ length : ℝ, inst.routeLength route = length := by
  rw [routeLength_eq_total]
  exact total_number numeric inside

/-- Numbers can be taken to the other side, whatever comes in for them. -/
theorem sub_eq_of_balance {after before firstCut secondCut joined : EReal}
    (known : ∃ number : ℝ, before = number) (first : ∃ number : ℝ, firstCut = number)
    (second : ∃ number : ℝ, secondCut = number)
    (balance : after + (firstCut + secondCut) = before + joined) :
    after - before = joined - firstCut - secondCut := by
  obtain ⟨length, rfl⟩ := known
  obtain ⟨first, rfl⟩ := first
  obtain ⟨second, rfl⟩ := second
  have gone : joined = after + (first + second) - length := by
    rw [balance, EReal.add_sub_cancel_left]
  have cancel : ∀ x : ℝ, (x : EReal) + -x = 0 := by
    intro x
    norm_cast
    exact add_neg_cancel x
  calc after - length
    _ = after + -length + (first + -first) + (second + -second) := by
      rw [cancel, cancel, add_zero, add_zero, sub_eq_add_neg]
    _ = joined - first - second := by
      rw [gone, sub_eq_add_neg, sub_eq_add_neg, sub_eq_add_neg]
      ac_rfl

/-- The tails come with the depot at the end, so the pieces already are the stops of a route. -/
theorem exists_spliced {head tail : Route} {i j : Nat} (inHead : i + 1 < head.stops.length)
    (inTail : j + 1 < tail.stops.length) (kind : VehicleKind) :
    ∃ ids, TwoOpt.splice head.stops i tail.stops j = .ok ids ∧
      (Route.ofIds kind ids).stops = head.stops.take (i + 1) ++ tail.stops.drop (j + 1) := by
  have pieces : TwoOpt.splice head.stops i tail.stops j =
      .ok (head.stops.take (i + 1) ++ tail.stops.drop (j + 1)) := by
    rw [TwoOpt.splice, Sequence.upTo_eq_ok (by omega), Fault.ok_bind,
      Sequence.beyond_eq_ok (by omega), Fault.ok_bind, Fault.pure_eq_ok]
  rw [Route.length_stops] at inHead inTail
  have bounded : TwoOpt.splice head.stops i tail.stops j =
      .ok (depotId :: (head.body.take i ++ tail.body.drop j) ++ [depotId]) :=
    TailExchange.splice_stops (by omega) (by omega)
  refine ⟨_, pieces, ?_⟩
  rw [Except.ok.inj (pieces.symm.trans bounded), Route.ofIds_bounded, Route.stops,
    Route.body_ofIds_of_served TailExchange.served_joined]

variable {i j : Nat}

theorem routeLength_reverse (symmetric : inst.distances.Symmetric) {route reversed : Route}
    (starts : 1 ≤ i) (ordered : i ≤ j) (ends : j + 1 < route.stops.length)
    (done : route.reverse i (j - i + 1) = .ok reversed) :
    let d := inst.leg
    let stops := route.stops
    inst.routeLength reversed + (d stops[i - 1] stops[i] + d stops[j] stops[j + 1]) =
      inst.routeLength route + (d stops[i - 1] stops[j] + d stops[i] stops[j + 1]) := by
  rw [routeLength_eq_total, routeLength_eq_total, Route.stops_of_reverse done]
  exact Sequence.total_reverseSegment (leg_symmetric symmetric) starts ordered ends

theorem routeLength_exchange (inst : Instance EReal) {first second left right : Route}
    (inFirst : i + 1 < first.stops.length) (inSecond : j + 1 < second.stops.length)
    (leftStops : left.stops = first.stops.take (i + 1) ++ second.stops.drop (j + 1))
    (rightStops : right.stops = second.stops.take (j + 1) ++ first.stops.drop (i + 1)) :
    let d := inst.leg
    let a := first.stops
    let b := second.stops
    inst.routeLength left + inst.routeLength right + (d a[i] a[i + 1] + d b[j] b[j + 1]) =
      inst.routeLength first + inst.routeLength second +
        (d a[i] b[j + 1] + d b[j] a[i + 1]) := by
  simp only [routeLength_eq_total, leftStops, rightStops]
  exact Sequence.total_exchange (List.getElem?_eq_getElem _) (List.getElem?_eq_getElem _)
    (List.getElem?_eq_getElem _) (List.getElem?_eq_getElem _)

/-- What moves change of the length of routes. Reversing customers `i` to `j` of a route takes two
legs away and adds two, if the table is symmetric; exchanging what follows positions `i` and `j` of
two routes does so in any table. Where all distances are numbers, that is the difference. -/
theorem routeLength_moved {inst : Instance EReal} (built : inst.Built) :
    let d := inst.leg
    (inst.distances.Symmetric → ∀ (route : Route) (i j : Nat) (starts : 1 ≤ i) (ordered : i ≤ j)
      (ends : j + 1 < route.stops.length), ∃ reversed, route.reverse i (j - i + 1) = .ok reversed ∧
        let stops := route.stops
        inst.routeLength reversed + (d stops[i - 1] stops[i] + d stops[j] stops[j + 1]) =
          inst.routeLength route + (d stops[i - 1] stops[j] + d stops[i] stops[j + 1]) ∧
        (inst.Numeric → (∀ id ∈ route.body, id < inst.customers.length) →
          inst.routeLength reversed - inst.routeLength route =
            d stops[i - 1] stops[j] + d stops[i] stops[j + 1] -
              d stops[i - 1] stops[i] - d stops[j] stops[j + 1])) ∧
    ∀ (first second : Route) (i j : Nat) (inFirst : i + 1 < first.stops.length)
      (inSecond : j + 1 < second.stops.length) (kind other : VehicleKind), ∃ left right,
        TwoOpt.splice first.stops i second.stops j = .ok left ∧
        TwoOpt.splice second.stops j first.stops i = .ok right ∧
        let a := first.stops
        let b := second.stops
        let before := inst.routeLength first + inst.routeLength second
        let after := inst.routeLength (.ofIds kind left) + inst.routeLength (.ofIds other right)
        after + (d a[i] a[i + 1] + d b[j] b[j + 1]) =
          before + (d a[i] b[j + 1] + d b[j] a[i + 1]) ∧
        (inst.Numeric → (∀ id ∈ first.body ++ second.body, id < inst.customers.length) →
          after - before =
            d a[i] b[j + 1] + d b[j] a[i + 1] - d a[i] a[i + 1] - d b[j] b[j + 1]) := by
  intro d
  constructor
  · intro symmetric route i j starts ordered ends
    obtain ⟨reversed, done⟩ : ∃ reversed, route.reverse i (j - i + 1) = .ok reversed :=
      ⟨_, if_pos (by omega)⟩
    have balance := routeLength_reverse symmetric starts ordered ends done
    refine ⟨reversed, done, balance, fun numeric customers => ?_⟩
    have inside := inside_stops built.coherent customers
    exact sub_eq_of_balance (routeLength_number numeric inside)
      (leg_number numeric (inside _ (List.getElem_mem _)) (inside _ (List.getElem_mem _)))
      (leg_number numeric (inside _ (List.getElem_mem _)) (inside _ (List.getElem_mem _))) balance
  · intro first second i j inFirst inSecond kind other
    obtain ⟨left, leftDone, leftStops⟩ := exists_spliced inFirst inSecond kind
    obtain ⟨right, rightDone, rightStops⟩ := exists_spliced inSecond inFirst other
    have balance := routeLength_exchange inst inFirst inSecond leftStops rightStops
    refine ⟨left, right, leftDone, rightDone, balance, fun numeric customers => ?_⟩
    obtain ⟨firstOnes, secondOnes⟩ := List.forall_mem_append.1 customers
    have inside := inside_stops built.coherent firstOnes
    have within := inside_stops built.coherent secondOnes
    obtain ⟨firstLength, firstNumber⟩ := routeLength_number numeric inside
    obtain ⟨secondLength, secondNumber⟩ := routeLength_number numeric within
    refine sub_eq_of_balance ⟨firstLength + secondLength, ?_⟩
      (leg_number numeric (inside _ (List.getElem_mem _)) (inside _ (List.getElem_mem _)))
      (leg_number numeric (within _ (List.getElem_mem _)) (within _ (List.getElem_mem _))) balance
    rw [firstNumber, secondNumber, EReal.coe_add]

/-- The distance between two locations is the product of their ids. -/
theorem routeLength_moved_three_customers :
    ∃ opened inst : Instance EReal,
      ofCustomers? [.depot 0 0, ⟨1, 0, 1, false⟩, ⟨2, 1, 0, true⟩, ⟨3, 1, 1, true⟩] 1 1 =
        some opened ∧
      opened.change? (.distances ⟨4, .ofFn fun place => (place / 4 * (place % 4) : Nat)⟩) =
        some inst ∧
      inst.distances.Symmetric ∧ inst.Numeric ∧
      inst.routeLength (.truck [1, 3, 2]) - inst.routeLength (.truck [1, 2, 3]) =
        inst.leg 1 3 + inst.leg 2 0 - inst.leg 1 2 - inst.leg 3 0 ∧
      inst.routeLength (.truck [1, 3]) + inst.routeLength (.drone [2]) -
          (inst.routeLength (.truck [1]) + inst.routeLength (.drone [2, 3])) =
        inst.leg 1 3 + inst.leg 2 0 - inst.leg 1 0 - inst.leg 2 3 := by
  let table : DistanceTable EReal := ⟨4, .ofFn fun place => (place / 4 * (place % 4) : Nat)⟩
  have opened := Built.opened (K := EReal)
    [.depot 0 0, ⟨1, 0, 1, false⟩, ⟨2, 1, 0, true⟩, ⟨3, 1, 1, true⟩] 1 1 rfl
  have built := opened.changed (.distances table) rfl
  have found : ∀ start finish, table.get? start finish =
      if start < 4 ∧ finish < 4 then some ((start * finish : Nat) : EReal) else none := by
    intro start finish
    unfold DistanceTable.get?
    by_cases inside : start < 4 ∧ finish < 4
    · have row : (start * 4 + finish) / 4 = start := by omega
      have column : (start * 4 + finish) % 4 = finish := by omega
      rw [dif_pos inside, if_pos inside]
      simp [table, DistanceTable.place, row, column]
    · rw [dif_neg inside, if_neg inside]
  have symmetric : table.Symmetric := by
    intro start finish
    simp only [found, and_comm, Nat.mul_comm]
  have numeric : ∀ distance ∈ table.cells, distance ≠ ⊥ ∧ distance ≠ ⊤ := by
    intro distance listed
    obtain ⟨place, -, rfl⟩ := Vector.getElem_of_mem listed
    rw [Vector.getElem_ofFn]
    exact ⟨EReal.natCast_ne_bot _, EReal.natCast_ne_top _⟩
  obtain ⟨reversals, exchanges⟩ := routeLength_moved built
  refine ⟨_, _, rfl, rfl, symmetric, numeric, ?_, ?_⟩
  · obtain ⟨reversed, done, -, delta⟩ :=
      reversals symmetric (.truck [1, 2, 3]) 2 3 (by decide) (by decide) (by decide)
    cases done
    exact delta numeric (by decide)
  · obtain ⟨left, right, leftDone, rightDone, -, delta⟩ :=
      exchanges (.truck [1]) (.drone [2, 3]) 1 1 (by decide) (by decide) .truck .drone
    cases leftDone
    cases rightDone
    exact delta numeric (by decide)

end Instance

end TruckDrone
