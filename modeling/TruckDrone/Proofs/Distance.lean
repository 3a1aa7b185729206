import TruckDrone.Distance
import TruckDrone.Proofs.Fault

/-! Tables of distances inside their bounds: each pair has a place of its own, both ways to look up
a distance find it there, and it stands in its row. -/

set_option autoImplicit false

namespace TruckDrone.DistanceTable

variable {K : Type} (table : DistanceTable K)

theorem exists_distance {start finish : Nat} (row : start < table.size)
    (column : finish < table.size) :
    ∃ distance, table.get? start finish = some distance ∧ table.get start finish = .ok distance :=
  ⟨_, dif_pos ⟨row, column⟩, dif_pos (table.place_lt row column)⟩

theorem place_div_mod (start : Nat) {finish : Nat} (inside : finish < table.size) :
    table.place start finish / table.size = start ∧
      table.place start finish % table.size = finish := by
  have positive : 0 < table.size := Nat.zero_lt_of_lt inside
  rw [place, Nat.mul_comm, Nat.mul_add_div positive, Nat.mul_add_mod, Nat.div_eq_of_lt inside,
    Nat.mod_eq_of_lt inside]
  exact ⟨rfl, rfl⟩

theorem place_inj {start finish row column : Nat} (inside : finish < table.size)
    (insideToo : column < table.size) :
    table.place start finish = table.place row column ↔ start = row ∧ finish = column := by
  constructor
  · intro same
    obtain ⟨starts, finishes⟩ := table.place_div_mod start inside
    rw [same] at starts finishes
    obtain ⟨rows, columns⟩ := table.place_div_mod row insideToo
    exact ⟨starts.symm.trans rows, finishes.symm.trans columns⟩
  · rintro ⟨rfl, rfl⟩
    rfl

theorem get?_eq_cell {start finish : Nat} (row : start < table.size)
    (column : finish < table.size) :
    table.get? start finish = table.cells[table.place start finish]? := by
  rw [get?, dif_pos ⟨row, column⟩, Vector.getElem?_eq_getElem]

@[simp] theorem length_rows : table.rows.length = table.size := by
  simp [rows]

theorem length_of_mem_rows {row : List K} (member : row ∈ table.rows) :
    row.length = table.size := by
  obtain ⟨start, inside, rfl⟩ := List.mem_map.1 member
  have known : ∀ finish ∈ List.range table.size, (table.get? start finish).isSome = true := by
    intro finish column
    obtain ⟨distance, found, -⟩ :=
      table.exists_distance (List.mem_range.1 inside) (List.mem_range.1 column)
    exact Option.isSome_of_eq_some found
  rw [List.length_filterMap_eq_countP, List.countP_eq_length.2 known, List.length_range]

theorem length_cells : table.cells.toList.length = table.size * table.size :=
  Vector.length_toList

variable {table}

theorem get?_eq_none {start finish : Nat} :
    table.get? start finish = none ↔ table.size ≤ start ∨ table.size ≤ finish := by
  unfold get?
  split
  next inside => simp [inside]
  next outside => exact iff_of_true rfl (by omega)

theorem lt_size_of_get? {start finish : Nat} {distance : K}
    (found : table.get? start finish = some distance) :
    start < table.size ∧ finish < table.size := by
  unfold get? at found
  split at found
  next inside => exact inside
  next => cases found

theorem get_eq_ok {start finish : Nat} {distance : K} :
    table.get start finish = .ok distance ↔
      table.cells[table.place start finish]? = some distance := by
  unfold get
  split
  next inside => simp [Vector.getElem?_eq_getElem inside]
  next outside => simp [Vector.getElem?_eq_none (Nat.le_of_not_lt outside)]

theorem cells_of_set {changed : DistanceTable K} {start finish : Nat} {distance : K}
    (done : table.set start finish distance = .ok changed) : changed.size = table.size ∧
      ∀ cell : Nat, changed.cells[cell]? =
        if table.place start finish = cell then some distance else table.cells[cell]? := by
  unfold set at done
  split at done
  next inside =>
    cases done
    exact ⟨rfl, fun cell => Vector.getElem?_set inside⟩
  next => cases done

end TruckDrone.DistanceTable
