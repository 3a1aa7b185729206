import Mathlib.Analysis.Real.Sqrt
import Mathlib.Data.EReal.Inv
import TruckDrone.Scalar

/-! Numbers without rounding, extended by infinity. What is never negative is infinite as a sum,
as a largest number or as a quotient just if some part of it is. Undercutting by the tolerance is
stricter than costing less. -/

set_option autoImplicit false

namespace TruckDrone

open Classical in
noncomputable instance : Scalar EReal where
  -- A distance takes the root of a sum of squares only, so the root of what is negative is free.
  sqrt x := if x = ⊤ then ⊤ else (Real.sqrt x.toReal : EReal)
  larger := max
  infinity := ⊤
  isFinite x := x ≠ ⊥ ∧ x ≠ ⊤
  less x y := x < y
  same x y := x = y
  tolerance := ((1 / 1000000 : ℝ) : EReal)

namespace Exact

theorem admitted_iff {x : EReal} :
    (Scalar.isFinite x && Scalar.less 0 x) = true ↔ 0 < x ∧ x ≠ ⊤ := by
  rw [Bool.and_eq_true]
  constructor
  · intro ⟨finite, positive⟩
    exact ⟨of_decide_eq_true positive, (of_decide_eq_true finite).2⟩
  · intro ⟨positive, finite⟩
    exact ⟨decide_eq_true ⟨(bot_le.trans_lt positive).ne', finite⟩, decide_eq_true positive⟩

theorem add_eq_top_iff {x y : EReal} (first : 0 ≤ x) (second : 0 ≤ y) :
    x + y = ⊤ ↔ x = ⊤ ∨ y = ⊤ := by
  have defined : ∀ {z : EReal}, 0 ≤ z → z ≠ ⊥ := fun nonneg =>
    (EReal.bot_lt_zero.trans_le nonneg).ne'
  have finite := EReal.add_ne_top_iff_ne_top₂ (defined first) (defined second)
  rw [← not_iff_not, not_or]
  exact finite

theorem sum_nonneg {terms : List EReal} (nonneg : ∀ term ∈ terms, 0 ≤ term) :
    0 ≤ Scalar.sum terms := by
  rw [Scalar.sum, ← List.sum_eq_foldl]
  exact List.sum_nonneg nonneg

theorem sum_eq_top_iff {terms : List EReal} (nonneg : ∀ term ∈ terms, 0 ≤ term) :
    Scalar.sum terms = ⊤ ↔ ⊤ ∈ terms := by
  rw [Scalar.sum, ← List.sum_eq_foldl]
  induction terms with
  | nil => simp
  | cons head tail ih =>
    obtain ⟨first, rest⟩ := List.forall_mem_cons.1 nonneg
    rw [List.sum_cons, add_eq_top_iff first (List.sum_nonneg rest), ih rest, List.mem_cons,
      eq_comm]

theorem largest_eq_top_iff {terms : List EReal} :
    terms.foldl Scalar.larger 0 = ⊤ ↔ ⊤ ∈ terms := by
  have onward : ∀ start : EReal,
      terms.foldl Scalar.larger start = ⊤ ↔ start = ⊤ ∨ ⊤ ∈ terms := by
    induction terms with
    | nil => simp
    | cons head tail ih =>
      intro start
      have larger : Scalar.larger start head = ⊤ ↔ start = ⊤ ∨ head = ⊤ := max_eq_top
      rw [List.foldl_cons, ih, List.mem_cons, larger, or_assoc, eq_comm (a := head)]
  simpa using onward 0

theorem div_eq_top_iff {x divisor : EReal} (positive : 0 < divisor) (finite : divisor ≠ ⊤) :
    x / divisor = ⊤ ↔ x = ⊤ := by
  constructor
  · intro infinite
    have undone := (EReal.div_eq_iff (bot_le.trans_lt positive).ne' finite positive.ne').1 infinite
    rw [undone, EReal.top_mul_of_pos positive]
  · rintro rfl
    exact EReal.top_div_of_pos_ne_top positive finite

/-! The tolerance. -/

theorem tolerance_nonneg : (0 : EReal) ≤ Scalar.tolerance :=
  EReal.coe_nonneg.2 (by norm_num)

theorem two_mul_tolerance : (2 * Scalar.tolerance : EReal) = Scalar.tolerance + Scalar.tolerance :=
  congrArg Real.toEReal (two_mul (1 / 1000000 : ℝ))

theorem undercuts_iff {candidate incumbent : EReal} :
    Scalar.undercuts candidate incumbent = true ↔ candidate + Scalar.tolerance < incumbent :=
  decide_eq_true_iff

theorem undercuts_eq_false_iff {candidate incumbent : EReal} :
    Scalar.undercuts candidate incumbent = false ↔ incumbent ≤ candidate + Scalar.tolerance := by
  rw [← Bool.not_eq_true, undercuts_iff, not_lt]

theorem lt_of_undercuts {candidate incumbent : EReal}
    (lower : Scalar.undercuts candidate incumbent = true) : candidate < incumbent :=
  (le_add_of_nonneg_right tolerance_nonneg).trans_lt (undercuts_iff.1 lower)

/-- What undercuts a cost is below all that does not. -/
theorem lt_of_undercuts_of_not {candidate other incumbent : EReal}
    (lower : Scalar.undercuts candidate incumbent = true)
    (notLower : Scalar.undercuts other incumbent = false) : candidate < other := by
  by_contra above
  have further := add_le_add_left (not_lt.1 above) (Scalar.tolerance : EReal)
  have reached := (undercuts_eq_false_iff.1 notLower).trans further
  exact absurd (undercuts_iff.1 lower) (not_lt.2 reached)

end Exact

end TruckDrone
