import Mathlib.Data.List.Induction
import TruckDrone.Binary64
import TruckDrone.Proofs.Distance
import TruckDrone.Proofs.Fault

/-! Runs of calls on a table, with any locations. Only the place of a pair is checked, so a finish
beyond the last column lands in a row below, on another pair; a call is refused only where there is
no such row. What a table holds after a run is told by the calls that landed on each pair. -/

set_option autoImplicit false

namespace TruckDrone.DistanceTable

variable {K : Type}

/-! Where a pair lands. -/

/-- The row that the place of a pair lies in, which may lie below the last one. -/
def landingRow (table : DistanceTable K) (start finish : Nat) : Nat := start + finish / table.size

def landingColumn (table : DistanceTable K) (finish : Nat) : Nat := finish % table.size

section Landing

variable {table : DistanceTable K} {start finish row column : Nat}

theorem landingColumn_lt (inside : row < table.size) (finish : Nat) :
    table.landingColumn finish < table.size :=
  Nat.mod_lt finish (Nat.zero_lt_of_lt inside)

theorem landing_of_lt (inside : finish < table.size) :
    table.landingRow start finish = start ∧ table.landingColumn finish = finish := by
  rw [landingRow, landingColumn, Nat.div_eq_of_lt inside, Nat.mod_eq_of_lt inside]
  exact ⟨rfl, rfl⟩

theorem place_landing (table : DistanceTable K) (start finish : Nat) :
    table.place (table.landingRow start finish) (table.landingColumn finish) =
      table.place start finish := by
  rw [place, place, landingRow, landingColumn, Nat.add_mul, Nat.add_assoc, Nat.div_add_mod']

theorem place_lt_iff :
    table.place start finish < table.size * table.size ↔
      table.landingRow start finish < table.size := by
  rw [← place_landing]
  constructor
  · intro inside
    rw [place] at inside
    exact Nat.lt_of_mul_lt_mul_right (Nat.lt_of_le_of_lt (Nat.le_add_right _ _) inside)
  · exact fun row => table.place_lt row (landingColumn_lt row finish)

/-- Looking up a pair without a check of its columns reads the pair that it lands on. -/
theorem get_eq_ok_iff_landing {distance : K} : table.get start finish = .ok distance ↔
    table.get? (table.landingRow start finish) (table.landingColumn finish) = some distance := by
  rw [get_eq_ok]
  by_cases inside : table.landingRow start finish < table.size
  · rw [get?_eq_cell _ inside (landingColumn_lt inside finish), place_landing]
  · have outside : table.size * table.size ≤ table.place start finish :=
      Nat.le_of_not_lt fun within => inside (place_lt_iff.1 within)
    rw [Vector.getElem?_eq_none outside, get?_eq_none.2 (.inl (Nat.le_of_not_lt inside))]

end Landing

/-! One call. -/

inductive Call (K : Type) where
  | get (start finish : Nat)
  | set (start finish : Nat) (distance : K)

namespace Call

def start : Call K → Nat
  | .get start _ => start
  | .set start _ _ => start

def finish : Call K → Nat
  | .get _ finish => finish
  | .set _ finish _ => finish

def perform (table : DistanceTable K) : Call K → Except Fault (DistanceTable K)
  | .get start finish => do
    let _ ← table.get start finish
    return table
  | .set start finish distance => table.set start finish distance

def Refused (table : DistanceTable K) (call : Call K) : Prop :=
  ∃ fault, call.perform table = .error fault

def leaves (table : DistanceTable K) (call : Call K) : DistanceTable K :=
  match call.perform table with
  | .ok changed => changed
  | .error _ => table

/-- The distance that a call sets for a pair by landing on it. -/
def sets? (table : DistanceTable K) (row column : Nat) : Call K → Option K
  | .get _ _ => none
  | .set start finish distance =>
    if table.landingRow start finish = row ∧ table.landingColumn finish = column then some distance
    else none

end Call

section Step

variable {table : DistanceTable K} {call : Call K}

theorem refused_iff :
    call.Refused table ↔ table.size ≤ table.landingRow call.start call.finish := by
  rw [← Nat.not_lt, ← place_lt_iff]
  unfold Call.Refused
  cases call with
  | get start finish =>
    unfold Call.perform get
    dsimp only [Call.start, Call.finish]
    split <;> simp [bind, Except.bind, *]
  | set start finish distance =>
    unfold Call.perform set
    dsimp only [Call.start, Call.finish]
    split <;> simp [*]

theorem leaves_of_refused (refused : call.Refused table) : call.leaves table = table := by
  obtain ⟨fault, refused⟩ := refused
  rw [Call.leaves, refused]

theorem leaves_get (table : DistanceTable K) (start finish : Nat) :
    (Call.get start finish).leaves table = table := by
  rw [Call.leaves, Call.perform]
  cases table.get start finish <;> rfl

theorem size_leaves (table : DistanceTable K) (call : Call K) :
    (call.leaves table).size = table.size := by
  cases call with
  | get => rw [leaves_get]
  | set start finish distance =>
    rw [Call.leaves, Call.perform]
    cases done : table.set start finish distance with
    | error fault => rfl
    | ok changed => exact (cells_of_set done).1

theorem get?_leaves (table : DistanceTable K) (call : Call K) {row column : Nat}
    (inRow : row < table.size) (inColumn : column < table.size) :
    (call.leaves table).get? row column =
      (call.sets? table row column).or (table.get? row column) := by
  cases call with
  | get =>
    rw [leaves_get]
    rfl
  | set start finish distance =>
    cases done : table.set start finish distance with
    | error fault =>
      have refused : (Call.set start finish distance).Refused table := ⟨fault, done⟩
      have below : table.size ≤ table.landingRow start finish := refused_iff.1 refused
      rw [leaves_of_refused refused, Call.sets?, if_neg (by omega), Option.none_or]
    | ok changed =>
      obtain ⟨size, cells⟩ := cells_of_set done
      have landed : table.place start finish = table.place row column ↔
          table.landingRow start finish = row ∧ table.landingColumn finish = column := by
        rw [← place_landing]
        exact table.place_inj (landingColumn_lt inRow finish) inColumn
      have place : changed.place row column = table.place row column := by
        rw [DistanceTable.place, DistanceTable.place, size]
      rw [Call.leaves, Call.perform, done, Call.sets?]
      dsimp only
      rw [get?_eq_cell changed (by rwa [size]) (by rwa [size]), place, cells,
        get?_eq_cell table inRow inColumn]
      simp only [landed]
      split <;> rfl

end Step

/-! A run of calls. -/

def after (table : DistanceTable K) (calls : List (Call K)) : DistanceTable K :=
  calls.foldl Call.leaves table

def lastSet? (table : DistanceTable K) (calls : List (Call K)) (row column : Nat) : Option K :=
  (calls.filterMap (Call.sets? table row column)).getLast?

section Run

variable {table : DistanceTable K} {row column : Nat}

theorem after_append (table : DistanceTable K) (first second : List (Call K)) :
    after table (first ++ second) = after (after table first) second :=
  List.foldl_append

theorem size_after (table : DistanceTable K) (calls : List (Call K)) :
    (after table calls).size = table.size := by
  induction calls using List.reverseRecOn with
  | nil => rfl
  | append_singleton calls last ih =>
    rw [after_append]
    exact (size_leaves _ last).trans ih

/-- Where a call lands depends on the size alone. -/
theorem sets?_congr {other : DistanceTable K} (same : other.size = table.size) (row column : Nat)
    (call : Call K) : call.sets? other row column = call.sets? table row column := by
  cases call with
  | get => rfl
  | set start finish distance =>
    rw [Call.sets?, Call.sets?, landingRow, landingRow, landingColumn, landingColumn, same]

theorem get?_after (calls : List (Call K)) (inRow : row < table.size)
    (inColumn : column < table.size) :
    (after table calls).get? row column =
      (lastSet? table calls row column).or (table.get? row column) := by
  -- The last call is the first to ask, and it lands where it would have in the table to begin with.
  induction calls using List.reverseRecOn with
  | nil => rfl
  | append_singleton calls last ih =>
    have size := size_after table calls
    have step := get?_leaves (after table calls) last (size ▸ inRow) (size ▸ inColumn)
    rw [ih, sets?_congr size] at step
    rw [after_append, lastSet?, List.filterMap_append, List.getLast?_append]
    refine step.trans ?_
    rw [lastSet?]
    cases set : last.sets? table row column <;> simp [set]

end Run

/-- After any run of calls, a table has its size, and for each pair the distance that was set last
by a call that landed there, or else the one it began with. A call is refused just if its pair
lands below the last row, and leaves the table as it was; a lookup that is not refused finds the
distance of the pair that it lands on. The checked lookup knows the pairs inside the table and no
others. So the two agree, on what they know and on what they find, but for a finish beyond the last
column with a row to land in. -/
theorem calls_land (table : DistanceTable K) (calls : List (Call K)) (call : Call K) :
    let now := after table calls
    let landed := call.start + call.finish / table.size
    now.size = table.size ∧
    (∀ row < table.size, ∀ column < table.size, now.get? row column =
      (lastSet? table calls row column).or (table.get? row column)) ∧
    (now.get? call.start call.finish = none ↔
      table.size ≤ call.start ∨ table.size ≤ call.finish) ∧
    (call.Refused now ↔ table.size ≤ landed) ∧
    (call.Refused now → call.leaves now = now) ∧
    ((call.Refused now ↔ now.get? call.start call.finish = none) ↔
      call.finish < table.size ∨ table.size ≤ landed) ∧
    (∀ found, now.get call.start call.finish = .ok found ↔
      now.get? landed (call.finish % table.size) = some found) ∧
    ∀ found, now.get? call.start call.finish = some found →
      now.get call.start call.finish = .ok found := by
  intro now landed
  have size : now.size = table.size := size_after table calls
  have landing : now.landingRow call.start call.finish = landed := by
    rw [landingRow, size]
  have unknown : now.get? call.start call.finish = none ↔
      table.size ≤ call.start ∨ table.size ≤ call.finish := by
    rw [get?_eq_none, size]
  have refused : call.Refused now ↔ table.size ≤ landed := by
    rw [refused_iff, size, landing]
  have inside : call.finish < table.size → landed = call.start := fun here =>
    (landing_of_lt here).1
  refine ⟨size, fun row inRow column inColumn => get?_after calls inRow inColumn, unknown, refused,
    leaves_of_refused, ?agree, fun found => ?lands, fun found known => ?finds⟩
  case agree =>
    rw [refused, unknown]
    omega
  case lands => rw [get_eq_ok_iff_landing, landing, landingColumn, size]
  case finds =>
    obtain ⟨-, column⟩ := lt_size_of_get? known
    obtain ⟨sameRow, sameColumn⟩ : now.landingRow call.start call.finish = call.start ∧
        now.landingColumn call.finish = call.finish := landing_of_lt column
    rw [get_eq_ok_iff_landing, sameRow, sameColumn, known]

/-- One call that lands in the last row, and one that is refused. -/
theorem calls_land_two_rows :
    let table : DistanceTable Binary64 := ⟨2, #v[0, 1, ⟨0x401c000000000000⟩, 0]⟩
    let now := after table [.set 0 3 1, .set 1 2 1, .get 2 0]
    (Call.set 1 2 1).Refused now ∧ now.get? 0 3 = none ∧ now.get 0 3 = .ok 1 ∧
      now.get? 1 1 = some 1 ∧ now.get? 1 0 = some ⟨0x401c000000000000⟩ := by
  intro table now
  have run := calls_land table [.set 0 3 1, .set 1 2 1, .get 2 0]
  obtain ⟨-, held, unknown, -, -, -, lands, -⟩ := run (.get 0 3)
  obtain ⟨-, -, -, refused, -⟩ := run (.set 1 2 1)
  have set : now.get? 1 1 = some 1 := (held 1 (by decide) 1 (by decide)).trans (by decide)
  have kept : now.get? 1 0 = some ⟨0x401c000000000000⟩ :=
    (held 1 (by decide) 0 (by decide)).trans (by decide)
  have wraps : 0 + 3 / table.size = 1 ∧ 3 % table.size = 1 := by decide
  refine ⟨refused.2 (by decide), unknown.2 (.inr (by decide)), (lands 1).2 ?_, set, kept⟩
  rwa [Call.start, Call.finish, wraps.1, wraps.2]

/-- A finish of 2 lies beyond the two columns, and no row of the table has a distance to it. Yet its
place is that of the pair 1, 0, which is read and set in its stead. -/
theorem calls_past_row :
    let table : DistanceTable Binary64 := ⟨2, #v[0, ⟨0x4014000000000000⟩, ⟨0x401c000000000000⟩, 0]⟩
    let distance : Binary64 := ⟨0x4022000000000000⟩
    table.get? 0 2 = none ∧
      ¬ (Call.get 0 2).Refused table ∧ table.get 0 2 = .ok ⟨0x401c000000000000⟩ ∧
      ¬ (Call.set 0 2 distance).Refused table ∧ table.get? 1 0 = some ⟨0x401c000000000000⟩ ∧
      ((Call.set 0 2 distance).leaves table).get? 1 0 = some distance := by
  intro table distance
  rw [refused_iff, refused_iff]
  decide

end TruckDrone.DistanceTable
