import Mathlib.Algebra.Order.Ring.Int
import Mathlib.Tactic.Linarith
import Mathlib.Tactic.Ring

/-!
# Rounded proportions

`scale a b c` is `a * b / c`, rounded to the nearest integer, a half upward. It takes
the positions `b` of a range `0 … c` to positions of a range `0 … a`.

1. **One way**: `scale` keeps the ends, the order and the bounds.
2. **There and back**: `scale_back_iff` tells which positions come back from a range
   that may be smaller, where both ways count from opposite ends.
-/

namespace Rounding

variable {a b c r : Int}

/-- `a * b / c`, rounded to the nearest. -/
def scale (a b c : Int) : Int := (a * b + c / 2) / c

/-! ## One way -/

theorem scale_eq_iff (hc : 0 < c) :
    scale a b c = r ↔ c * (2 * r - 1) ≤ 2 * (a * b) ∧ 2 * (a * b) < c * (2 * r + 1) := by
  have hfloor : scale a b c = r ↔ r * c ≤ a * b + c / 2 ∧ a * b + c / 2 < (r + 1) * c := by
    rw [scale, ← Int.le_ediv_iff_mul_le hc, ← Int.ediv_lt_iff_lt_mul hc]
    omega
  have hlow : c * (2 * r - 1) = 2 * (r * c) - c := by ring
  have hhigh : c * (2 * r + 1) = 2 * (r * c) + c := by ring
  have hnext : (r + 1) * c = r * c + c := by ring
  rw [hfloor, hlow, hhigh, hnext]
  omega

theorem scale_comm (a b c : Int) : scale a b c = scale b a c := by
  rw [scale, scale, mul_comm]

theorem scale_mono (hc : 0 < c) (ha : 0 ≤ a) {b' : Int} (h : b ≤ b') :
    scale a b c ≤ scale a b' c :=
  Int.ediv_le_ediv hc (add_le_add_left (mul_le_mul_of_nonneg_left h ha) _)

theorem scale_mono_left (hc : 0 < c) (hb : 0 ≤ b) {a' : Int} (h : a ≤ a') :
    scale a b c ≤ scale a' b c := by
  rw [scale_comm a, scale_comm a']
  exact scale_mono hc hb h

theorem scale_zero (hc : 0 < c) (a : Int) : scale a 0 c = 0 := by
  rw [scale_eq_iff hc]
  constructor <;> linarith

theorem scale_self (hc : 0 < c) (a : Int) : scale a c c = a := by
  rw [scale_eq_iff hc]
  constructor <;> nlinarith

theorem scale_nonneg (hc : 0 < c) (ha : 0 ≤ a) (hb : 0 ≤ b) : 0 ≤ scale a b c := by
  have hmono := scale_mono hc ha hb
  rwa [scale_zero hc] at hmono

theorem scale_le (hc : 0 < c) (ha : 0 ≤ a) (hb : b ≤ c) : scale a b c ≤ a := by
  have hmono := scale_mono hc ha hb
  rwa [scale_self hc] at hmono

/-! ## There and back -/

/-- What is less than half of `c` away from a multiple is the remainder, or the
remainder less `c`. -/
theorem near_multiple (hc : 0 < c) {n k : Int} (hlow : -c < 2 * (n - k * c))
    (hhigh : 2 * (n - k * c) ≤ c) :
    n - k * c = if 2 * (n % c) ≤ c then n % c else n % c - c := by
  have hr := Int.emod_nonneg n hc.ne'
  have hr' := Int.emod_lt_of_pos n hc
  have hdiff : n - k * c = c * (n / c - k) + n % c := by
    have hdiv := Int.mul_ediv_add_emod n c
    linarith [mul_sub c (n / c) k, mul_comm c k]
  -- the quotient is k or one less
  have hquot : n / c - k = 0 ∨ n / c - k = -1 := by
    have hupper : n / c - k < 1 := by
      by_contra hge
      have hmul := mul_le_mul_of_nonneg_left (not_lt.1 hge) hc.le
      linarith
    have hlower : -2 < n / c - k := by
      by_contra hle
      have hmul := mul_le_mul_of_nonneg_left (not_lt.1 hle) hc.le
      linarith
    omega
  rcases hquot with hzero | hminus
  · rw [hzero, mul_zero, zero_add] at hdiff
    rw [hdiff, if_pos (by omega)]
  · rw [hminus] at hdiff
    rw [if_neg (by omega)]
    linarith

/-- Position `o` of `0 … m` goes to `0 … n` and back, each way counted from the other
end. It is the same again exactly if `0 … n` has a place for each, or the exact
position is near enough to a place. -/
theorem scale_back_iff {m n o : Int} (hm : 0 < m) (hn : 0 < n) :
    scale (n - scale n (m - o) m) m n = o ↔
      m ≤ n ∨ 2 * (o * n % m) ≤ n ∨ 2 * (m - o * n % m) < n := by
  obtain ⟨q, hq⟩ : ∃ q, n - scale n (m - o) m = q := ⟨_, rfl⟩
  -- q is the nearest place to the exact one
  have hplace := (scale_eq_iff hm).1 (show scale n (m - o) m = n - q by omega)
  have hlow : -m < 2 * (o * n - q * m) := by linarith
  have hhigh : 2 * (o * n - q * m) ≤ m := by linarith
  -- what comes back is the position that q is nearest to
  have hback : scale q m n = o ↔ -n < 2 * (o * n - q * m) ∧ 2 * (o * n - q * m) ≤ n := by
    rw [scale_eq_iff hn]
    constructor <;> intro h <;> constructor <;> linarith [h.1, h.2]
  have hr := Int.emod_nonneg (o * n) hm.ne'
  have hr' := Int.emod_lt_of_pos (o * n) hm
  rw [hq, hback, near_multiple hm hlow hhigh]
  split <;> omega

end Rounding
