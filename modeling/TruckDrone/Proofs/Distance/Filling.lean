import Mathlib.Data.List.FinRange
import TruckDrone.Proofs.Distance.Calls

/-! Tables as they are filled, cell by cell. Calls that all set the distances of one table, and
reach every pair where it differs from the table they begin with, make that table, in whatever order
they come. So measuring each pair of customers once, and entering the distance in both directions,
makes the table of straight-line distances. -/

set_option autoImplicit false

namespace TruckDrone.DistanceTable

open Sequence

variable {K : Type}

/-! What new tables hold. -/

def Reads (table : DistanceTable K) (start finish : Nat) (distance : K) : Prop :=
  table.get start finish = .ok distance ∧ table.get? start finish = some distance

theorem reads_of_get? {table : DistanceTable K} {start finish : Nat} {distance : K}
    (found : table.get? start finish = some distance) : table.Reads start finish distance := by
  obtain ⟨row, column⟩ := lt_size_of_get? found
  rw [get?_eq_cell table row column] at found
  exact ⟨get_eq_ok.2 found, by rwa [get?_eq_cell table row column]⟩

theorem ext_get? {table other : DistanceTable K} (size : table.size = other.size)
    (same : ∀ row < table.size, ∀ column < table.size,
      table.get? row column = other.get? row column) : table = other := by
  obtain ⟨count, cells⟩ := table
  obtain ⟨_, others⟩ := other
  cases size
  congr 1
  refine Vector.ext fun cell inside => ?_
  have positive : 0 < count := Nat.pos_of_mul_pos_left (Nat.zero_lt_of_lt inside)
  have row := Nat.div_lt_of_lt_mul inside
  have column := Nat.mod_lt cell positive
  have here := same _ row _ column
  rw [get?_eq_cell _ row column, get?_eq_cell _ row column] at here
  simp only [place, Nat.div_add_mod'] at here
  simpa [inside] using here

theorem rows_eq (table : DistanceTable K) : table.rows = .ofFn fun row : Fin table.size =>
    .ofFn fun column : Fin table.size =>
      table.cells.get ⟨table.place row column, table.place_lt row.isLt column.isLt⟩ := by
  rw [rows, ← List.map_coe_finRange_eq_range, List.map_map, List.ofFn_eq_map]
  refine List.map_congr_left fun row _ => ?_
  rw [Function.comp_apply, List.filterMap_map, List.ofFn_eq_map, ← List.filterMap_eq_map]
  refine List.filterMap_congr fun column _ => ?_
  exact dif_pos ⟨row.isLt, column.isLt⟩

theorem flatten_rows (table : DistanceTable K) : table.rows.flatten = table.cells.toList := by
  have cells : List.ofFn table.cells.get = table.cells.toList := by
    rw [← Vector.toList_ofFn]
    exact congrArg Vector.toList Vector.ofFn_getElem
  rw [rows_eq, ← cells]
  exact (List.ofFn_mul table.cells.get).symm

theorem get?_eq_rows (table : DistanceTable K) (start finish : Nat) :
    table.get? start finish = (table.rows[start]?).bind (·[finish]?) := by
  rw [rows_eq, List.getElem?_ofFn, get?]
  by_cases row : start < table.size
  · rw [dif_pos row, Option.bind_some, List.getElem?_ofFn]
    by_cases column : finish < table.size
    · rw [dif_pos ⟨row, column⟩, dif_pos column]
      rfl
    · rw [dif_neg fun inside => column inside.2, dif_neg column]
  · rw [dif_neg row, dif_neg fun inside => row inside.1, Option.bind_none]

theorem get?_zero [Scalar K] {size start finish : Nat} (row : start < size)
    (column : finish < size) : (zero size : DistanceTable K).get? start finish = some 0 := by
  have inside := place_lt (zero size : DistanceTable K) row column
  rw [get?_eq_cell _ row column, zero, Vector.getElem?_replicate]
  exact if_pos inside

/-- A customer is at no distance from itself, and two are at the distance measured from the
earlier one. -/
theorem get?_ofCustomers [Scalar K] {customers : List (Customer K)} {start finish : Nat}
    {a b : Customer K} (first : customers[start]? = some a) (second : customers[finish]? = some b) :
    (ofCustomers customers).get? start finish = some
      (if start < finish then a.distanceTo b
      else if finish < start then b.distanceTo a else 0) := by
  obtain ⟨row, rfl⟩ := List.getElem?_eq_some_iff.1 first
  obtain ⟨column, rfl⟩ := List.getElem?_eq_some_iff.1 second
  obtain ⟨quotient, remainder⟩ := place_div_mod (ofCustomers customers) start column
  have inside : (ofCustomers customers).place start finish < customers.length * customers.length :=
    place_lt _ row column
  rw [get?_eq_cell _ row column]
  refine Vector.getElem?_ofFn.trans ?_
  rw [dif_pos inside]
  simp only [ofCustomers] at quotient remainder ⊢
  simp only [quotient, remainder]

theorem get?_both [Scalar K] {customers : List (Customer K)} {start finish : Nat}
    {a b : Customer K} (first : customers[start]? = some a) (second : customers[finish]? = some b)
    (earlier : start < finish) :
    (ofCustomers customers).get? start finish = some (a.distanceTo b) ∧
      (ofCustomers customers).get? finish start = some (a.distanceTo b) := by
  rw [get?_ofCustomers first second, get?_ofCustomers second first, if_pos earlier,
    if_neg (Nat.not_lt.2 earlier.le), if_pos earlier]
  exact ⟨rfl, rfl⟩

/-! Calls inside the table. -/

namespace Call

def Inside (table : DistanceTable K) (call : Call K) : Prop :=
  call.start < table.size ∧ call.finish < table.size

instance (table : DistanceTable K) (call : Call K) : Decidable (call.Inside table) :=
  inferInstanceAs (Decidable (_ ∧ _))

def enters? (start finish : Nat) : Call K → Option K
  | .get _ _ => none
  | .set first second distance =>
    if first = start ∧ second = finish then some distance else none

end Call

def lastEntered? (calls : List (Call K)) (start finish : Nat) : Option K :=
  (calls.filterMap (Call.enters? start finish)).getLast?

section Inside

variable {table target : DistanceTable K} {call : Call K}

theorem perform_of_inside (inside : call.Inside table) :
    call.perform table = .ok (call.leaves table) := by
  have row : table.landingRow call.start call.finish < table.size := by
    rw [(landing_of_lt inside.2).1]
    exact inside.1
  rw [Call.leaves]
  cases done : call.perform table with
  | ok changed => rfl
  | error fault => exact absurd (refused_iff.1 ⟨fault, done⟩) (Nat.not_le.2 row)

theorem sets?_of_inside (inside : call.Inside table) (start finish : Nat) :
    call.sets? table start finish = call.enters? start finish := by
  cases call with
  | get => rfl
  | set first second distance =>
    obtain ⟨row, column⟩ : table.landingRow first second = first ∧
        table.landingColumn second = second := landing_of_lt inside.2
    rw [Call.sets?, row, column]
    rfl

theorem lastSet?_of_inside {calls : List (Call K)} (inside : ∀ call ∈ calls, call.Inside table)
    (start finish : Nat) : lastSet? table calls start finish = lastEntered? calls start finish := by
  have same := List.filterMap_congr fun call member =>
    sets?_of_inside (inside call member) start finish
  rw [lastSet?, lastEntered?, same]

/-- A loop in whose turns no call is refused makes the calls of all turns, one after the other. -/
theorem foldlM_eq_after {ι : Type} {step : DistanceTable K → ι → Except Fault (DistanceTable K)}
    {calls : ι → List (Call K)} {items : List ι} {size : Nat}
    (makes : ∀ item ∈ items, ∀ table : DistanceTable K, table.size = size →
      step table item = .ok (after table (calls item)))
    (table : DistanceTable K) (same : table.size = size) :
    items.foldlM step table = .ok (after table (items.flatMap calls)) := by
  induction items generalizing table with
  | nil => rfl
  | cons head tail ih =>
    obtain ⟨here, later⟩ := List.forall_mem_cons.1 makes
    rw [List.foldlM_cons, here table same, Fault.ok_bind,
      ih later _ ((size_after _ _).trans same), List.flatMap_cons, after_append]

theorem set_both {start finish : Nat} (first : start < table.size) (second : finish < table.size)
    (distance : K) :
    (table.set start finish distance >>= fun table => table.set finish start distance) =
      .ok (after table [.set start finish distance, .set finish start distance]) := by
  have forth : (Call.set start finish distance).perform table =
      .ok ((Call.set start finish distance).leaves table) := perform_of_inside ⟨first, second⟩
  rw [← size_leaves table (.set start finish distance)] at first second
  have back : (Call.set finish start distance).Inside _ := ⟨second, first⟩
  exact (congrArg (· >>= _) forth).trans (perform_of_inside back)

theorem get?_of_sets? (size : table.size = target.size) {start finish : Nat} {distance : K}
    (held : target.get? start finish = some distance) {row column : Nat} {found : K}
    (set : (Call.set start finish distance).sets? table row column = some found) :
    target.get? row column = some found := by
  have inside : (Call.set start finish distance).Inside table := by
    rw [Call.Inside, size]
    exact lt_size_of_get? held
  rw [sets?_of_inside inside, Call.enters?] at set
  split at set
  next same => rwa [← same.1, ← same.2, ← set]
  next => cases set

/-- Whatever the order of the calls, they make the table whose distances they all set, if they set
one for each pair where it differs from the table before. -/
theorem after_eq_of_agree (size : table.size = target.size) {calls : List (Call K)}
    (agrees : ∀ start finish distance, Call.set start finish distance ∈ calls →
      target.get? start finish = some distance)
    (covers : ∀ row < table.size, ∀ column < table.size,
      (∃ distance, Call.set row column distance ∈ calls) ∨
        table.get? row column = target.get? row column) :
    after table calls = target := by
  have kept := size_after table calls
  -- A pair that was set last holds what all calls agree on; one never set is as it was before.
  refine ext_get? (kept.trans size) fun row inRow column inColumn => ?_
  rw [kept] at inRow inColumn
  rw [get?_after calls inRow inColumn]
  cases last : lastSet? table calls row column with
  | some distance =>
    obtain ⟨call, member, set⟩ := List.mem_filterMap.1 (List.mem_of_getLast? last)
    cases call with
    | get => cases set
    | set start finish distance =>
      exact (get?_of_sets? size (agrees start finish distance member) set).symm
  | none =>
    have untouched := List.filterMap_eq_nil_iff.1 (List.getLast?_eq_none_iff.1 last)
    rcases covers row inRow column inColumn with ⟨distance, member⟩ | same
    · have inside : (Call.set row column distance).Inside table := ⟨inRow, inColumn⟩
      have missed := untouched _ member
      rw [sets?_of_inside inside, Call.enters?, if_pos ⟨rfl, rfl⟩] at missed
      cases missed
    · exact same

end Inside

/-! The table of straight-line distances. -/

section Measured

variable [Scalar K] {customers : List (Customer K)}

def cross (customers : List (Customer K)) (start : Nat) (table : DistanceTable K) (finish : Nat) :
    Except Fault (DistanceTable K) := do
  let distance := (← entry customers start).distanceTo (← entry customers finish)
  let table ← table.set start finish distance
  table.set finish start distance

def measured (customers : List (Customer K)) : Except Fault (DistanceTable K) :=
  (List.range customers.length).foldlM (fun table start =>
    (span (start + 1) customers.length).foldlM (cross customers start) table)
    (zero customers.length)

def crossing (customers : List (Customer K)) (start finish : Nat) : List (Call K) :=
  let distance := ((ofCustomers customers).get? start finish).getD 0
  [.set start finish distance, .set finish start distance]

def crossings (customers : List (Customer K)) : List (Call K) :=
  (List.range customers.length).flatMap fun start =>
    (span (start + 1) customers.length).flatMap (crossing customers start)

theorem mem_crossings {call : Call K} : call ∈ crossings customers ↔
    ∃ start finish, start < finish ∧ finish < customers.length ∧
      call ∈ crossing customers start finish := by
  simp only [crossings, List.mem_flatMap, List.mem_range, mem_span]
  constructor
  · rintro ⟨start, -, finish, ⟨earlier, inside⟩, member⟩
    exact ⟨start, finish, earlier, inside, member⟩
  · rintro ⟨start, finish, earlier, inside, member⟩
    exact ⟨start, earlier.trans inside, finish, ⟨earlier, inside⟩, member⟩

theorem cross_eq_ok {table : DistanceTable K} (size : table.size = customers.length)
    {start finish : Nat} (earlier : start < finish) (inside : finish < customers.length) :
    cross customers start table finish = .ok (after table (crossing customers start finish)) := by
  have early : start < customers.length := earlier.trans inside
  obtain ⟨held, -⟩ :=
    get?_both (List.getElem?_eq_getElem early) (List.getElem?_eq_getElem inside) earlier
  rw [cross, entry_eq_ok early, Fault.ok_bind, entry_eq_ok inside, Fault.ok_bind, crossing, held]
  exact set_both (size ▸ early) (size ▸ inside) _

theorem crossing_agrees {start finish : Nat} (earlier : start < finish)
    (inside : finish < customers.length) (row column : Nat) (distance : K)
    (member : Call.set row column distance ∈ crossing customers start finish) :
    (ofCustomers customers).get? row column = some distance := by
  have early : start < customers.length := earlier.trans inside
  obtain ⟨forth, back⟩ :=
    get?_both (List.getElem?_eq_getElem early) (List.getElem?_eq_getElem inside) earlier
  rw [crossing, forth, Option.getD_some, List.mem_pair] at member
  rcases member with same | same
  · cases same
    exact forth
  · cases same
    exact back

/-- Measuring every pair of customers is never refused, and makes the table of their distances. -/
theorem measured_eq_ok (customers : List (Customer K)) :
    measured customers = .ok (ofCustomers customers) := by
  have runs : measured customers =
      .ok (after (zero customers.length) (crossings customers)) := by
    refine foldlM_eq_after ?turn (zero customers.length) rfl
    intro start _ table size
    refine foldlM_eq_after ?pair table size
    intro finish inSpan table size
    obtain ⟨earlier, inside⟩ := mem_span.1 inSpan
    exact cross_eq_ok size earlier inside
  have size : (zero customers.length : DistanceTable K).size = (ofCustomers customers).size := rfl
  rw [runs]
  refine congrArg _ (after_eq_of_agree size ?agrees ?covers)
  case agrees =>
    intro row column distance member
    obtain ⟨start, finish, earlier, inside, member⟩ := mem_crossings.1 member
    exact crossing_agrees earlier inside row column distance member
  case covers =>
    intro row (inRow : row < customers.length) column (inColumn : column < customers.length)
    rcases Nat.lt_trichotomy row column with earlier | rfl | later
    · exact .inl ⟨_, mem_crossings.2 ⟨row, column, earlier, inColumn, List.mem_cons_self ..⟩⟩
    -- The diagonal stays zero.
    · right
      rw [get?_zero inRow inColumn, get?_ofCustomers (List.getElem?_eq_getElem inRow)
        (List.getElem?_eq_getElem inColumn)]
      simp
    · exact .inl ⟨_, mem_crossings.2 ⟨column, row, later, inRow,
        List.mem_cons_of_mem _ (List.mem_singleton_self _)⟩⟩

end Measured

/-- Measuring the customers pair by pair makes the table that holds, for both directions of a pair,
the distance from the earlier of the two, and zero on the diagonal. A new table holds zeros. A list
of distances is accepted if there are just as many as the table has cells, and they are its rows in
turn. From any table on, calls inside it are never refused, and leave its size, the distance that
was entered last for just this pair, or the one it began with. -/
theorem last_entry_read [Scalar K] :
    (∀ customers : List (Customer K),
      measured customers = .ok (ofCustomers customers) ∧
      (ofCustomers customers).size = customers.length ∧
      (∀ i j a b, i < j → customers[i]? = some a → customers[j]? = some b →
        (ofCustomers customers).Reads i j (a.distanceTo b) ∧
        (ofCustomers customers).Reads j i (a.distanceTo b)) ∧
      ∀ i < customers.length, (ofCustomers customers).Reads i i 0) ∧
    (∀ size, (zero size : DistanceTable K).size = size ∧
      ∀ i < size, ∀ j < size, (zero size : DistanceTable K).Reads i j 0) ∧
    (∀ size (distances : List K),
      (distances.length ≠ size * size → ofRows? size distances = none) ∧
      (distances.length = size * size → ∃ table, ofRows? size distances = some table ∧
        table.size = size ∧ table.rows.flatten = distances)) ∧
    ∀ (table : DistanceTable K) (calls : List (Call K)), (∀ call ∈ calls, call.Inside table) →
      calls.foldlM Call.perform table = .ok (after table calls) ∧
      (after table calls).size = table.size ∧
      ∀ i < table.size, ∀ j < table.size, ∃ distance, (after table calls).Reads i j distance ∧
        some distance = (lastEntered? calls i j).or ((table.rows[i]?).bind (·[j]?)) := by
  refine ⟨fun customers => ⟨measured_eq_ok customers, rfl, ?pairs, ?diagonal⟩,
    fun size => ⟨rfl, fun i row j column => reads_of_get? (get?_zero row column)⟩,
    fun size distances => ⟨fun other => dif_neg other, ?accepted⟩, fun table calls inside => ?run⟩
  case pairs =>
    intro i j a b earlier first second
    obtain ⟨forth, back⟩ := get?_both first second earlier
    exact ⟨reads_of_get? forth, reads_of_get? back⟩
  case diagonal =>
    intro i inside
    have present := List.getElem?_eq_getElem inside
    have held := get?_ofCustomers present present
    rw [if_neg (Nat.lt_irrefl i), if_neg (Nat.lt_irrefl i)] at held
    exact reads_of_get? held
  case accepted =>
    intro square
    exact ⟨_, dif_pos square, rfl, flatten_rows _⟩
  case run =>
    have calledOnce : calls.flatMap (fun call => [call]) = calls := by simp
    have passes : ∀ call ∈ calls, ∀ other : DistanceTable K, other.size = table.size →
        call.perform other = .ok (after other [call]) := by
      intro call member other same
      have here : call.Inside other := by
        rw [Call.Inside, same]
        exact inside call member
      exact perform_of_inside here
    have runs := foldlM_eq_after passes table rfl
    rw [calledOnce] at runs
    refine ⟨runs, size_after table calls, fun i row j column => ?_⟩
    obtain ⟨distance, found, -⟩ := (after table calls).exists_distance
      ((size_after table calls).symm ▸ row) ((size_after table calls).symm ▸ column)
    refine ⟨distance, reads_of_get? found, ?_⟩
    rw [← found, get?_after calls row column, lastSet?_of_inside inside, get?_eq_rows]

/-- Two distances are entered for one direction of a pair, and one on the diagonal. -/
theorem last_entry_read_three_customers :
    let b : Customer Binary64 := ⟨1, 1, 0, true⟩
    let c : Customer Binary64 := ⟨2, 0, 1, false⟩
    let table := ofCustomers [.depot 0 0, b, c]
    let calls : List (Call Binary64) := [.set 2 1 0, .get 2 2, .set 2 1 1, .set 2 2 1]
    measured [.depot 0 0, b, c] = .ok table ∧ (∀ call ∈ calls, call.Inside table) ∧
      calls.foldlM Call.perform table = .ok (after table calls) ∧
      table.Reads 2 1 (b.distanceTo c) ∧ (after table calls).Reads 2 1 1 ∧
      (after table calls).Reads 1 2 (b.distanceTo c) ∧
      (zero 3 : DistanceTable Binary64).Reads 2 0 0 ∧ ofRows? 2 [(0 : Binary64)] = none ∧
      ∃ accepted, ofRows? 2 [(0 : Binary64), 1, 1, 0] = some accepted ∧
        accepted.rows.flatten = [0, 1, 1, 0] := by
  intro b c table calls
  obtain ⟨measures, zeros, accepts, runs⟩ := last_entry_read (K := Binary64)
  obtain ⟨made, -, pairs, -⟩ := measures [.depot 0 0, b, c]
  obtain ⟨forth, back⟩ := pairs 1 2 b c (by decide) rfl rfl
  have inside : ∀ call ∈ calls, call.Inside table := by decide
  obtain ⟨passed, -, reads⟩ := runs table calls inside
  obtain ⟨entered, readsEntered, last⟩ := reads 2 (by decide) 1 (by decide)
  obtain ⟨kept, readsKept, first⟩ := reads 1 (by decide) 2 (by decide)
  obtain ⟨rows, accepted, -, flat⟩ := (accepts 2 [0, 1, 1, 0]).2 rfl
  have entered : entered = 1 := Option.some.inj last
  have kept : kept = b.distanceTo c := by
    rw [← get?_eq_rows, forth.2] at first
    exact Option.some.inj first
  exact ⟨made, inside, passed, back, entered ▸ readsEntered, kept ▸ readsKept,
    (zeros 3).2 2 (by decide) 0 (by decide), (accepts 2 [0]).1 (by decide), rows, accepted, flat⟩

end TruckDrone.DistanceTable
