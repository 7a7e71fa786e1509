import Mathlib.Algebra.Order.Ring.Int
import Mathlib.Tactic.Common

/-!
# Cells of an axis

An axis cut into cells of one width, counted from 0.

* `Span`: a cell holds a point; `span_div` finds it by a division.
* `gap`: how far a point is from a cell.
* `div_lt_fit_iff`: which points of a window are in the whole cells that fit into it.
-/

namespace Grid

variable {w x : Int} {i : Nat}

/-- Cell `i` holds the point. -/
def Span (w : Int) (i : Nat) (x : Int) : Prop := i * w ≤ x ∧ x < (i + 1) * w

instance (w : Int) (i : Nat) (x : Int) : Decidable (Span w i x) :=
  inferInstanceAs (Decidable (_ ∧ _))

/-- How far the point is from cell `i`. -/
def gap (w : Int) (i : Nat) (x : Int) : Nat := (max (i * w - x) (x + 1 - (i + 1) * w)).toNat

theorem span_div (hw : 0 < w) (hx : 0 ≤ x) : Span w (x / w).toNat x := by
  rw [Span, Int.toNat_of_nonneg (Int.ediv_nonneg hx hw.le)]
  exact ⟨Int.ediv_mul_le x hw.ne', Int.lt_ediv_add_one_mul_self x hw⟩

/-- The cells that start at or before the point. -/
theorem Span.start_le_iff (hw : 0 < w) (h : Span w i x) {k : Nat} : k * w ≤ x ↔ k ≤ i := by
  constructor
  · intro hle
    have hlt : (k : Int) < i + 1 := lt_of_mul_lt_mul_right (lt_of_le_of_lt hle h.2) hw.le
    omega
  · intro hle
    have hcast : (k : Int) ≤ i := by exact_mod_cast hle
    exact le_trans (mul_le_mul_of_nonneg_right hcast hw.le) h.1

/-- A cell is at a distance from a point exactly if it does not hold it. -/
theorem gap_eq_zero_iff : gap w i x = 0 ↔ Span w i x := by
  rw [gap, Int.toNat_eq_zero, max_le_iff, Span]
  omega

/-- Of a window, at least one cell is there. A point is in one of its cells, except in
what the last whole cell leaves. -/
theorem div_lt_fit_iff {size : Int} (hw : 0 < w) (hx : 0 ≤ x) (hsize : x < size) :
    x / w < max 1 (size / w) ↔ ¬(w ≤ size ∧ size - size % w ≤ x) := by
  by_cases hfit : w ≤ size
  · have hone : 1 ≤ size / w := (Int.le_ediv_iff_mul_le hw).2 (by rwa [one_mul])
    -- the whole cells end where the remainder begins
    have hcells : size / w * w = size - size % w := by
      have hdiv := Int.mul_ediv_add_emod size w
      rw [mul_comm] at hdiv
      omega
    rw [max_eq_right hone, Int.ediv_lt_iff_lt_mul hw, hcells]
    simp only [hfit, true_and, not_le]
  -- a window narrower than a cell has the first one
  · have hfirst : x / w = 0 := Int.ediv_eq_zero_of_lt hx (by omega)
    simp only [hfirst, hfit, false_and, not_false_iff, iff_true]
    exact lt_of_lt_of_le zero_lt_one (le_max_left _ _)

end Grid
