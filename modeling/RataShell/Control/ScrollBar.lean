import RataShell.Lib.Rounding
import RataShell.Control.Messages

/-!
# The scroll bar

The thumb is placed from the offset of the view, and a drag computes the offset from
the place of the thumb; both divide with `MulDiv`.

* `scrollBar_exact`: either way keeps ends, bounds and order.
* `grab_steady_iff`: which offsets a drag gives back that does not move.
-/

namespace RataShell.Input

open Rounding (scale)
open Term (Alacritty Plain plain)

variable {T R : Type}

/-! ## Arithmetic -/

/-- `MulDiv` of numbers that are not negative, where it does not fail. -/
theorem mulDiv_eq_scale {a b c : Int} (ha : 0 ≤ a) (hb : 0 ≤ b) (hc : 0 < c)
    (hlarge : scale a b c ≤ 2147483647) : mulDiv a b c = scale a b c := by
  have hproduct : 0 ≤ a * b := mul_nonneg ha hb
  have hnonneg := Rounding.scale_nonneg hc ha hb
  have hquot :
      (((a * b).natAbs : Int) + (c.natAbs : Int) / 2) / (c.natAbs : Int) = scale a b c := by
    rw [Int.natAbs_of_nonneg hproduct, Int.natAbs_of_nonneg hc.le, scale]
  have hsign : a * b < 0 ↔ c < 0 := by omega
  simp only [mulDiv, if_neg hc.ne', hquot, if_pos hsign]
  exact if_neg (by omega)

theorem asInteger_eq (u : UInt32) :
    asInteger u = if u.toNat < 2147483648 then (u.toNat : Int) else u.toNat - 4294967296 := by
  have hint : asInteger u = u.toBitVec.toInt := rfl
  rw [hint, BitVec.toInt_eq_toNat_cond]
  simp only [UInt32.toNat_toBitVec]
  split <;> split <;> omega

theorem asInteger_zero : asInteger 0 = 0 := by decide

/-- Below an `Integer` that is not negative the order stays. -/
theorem asInteger_le {u v : UInt32} (hv : 0 ≤ asInteger v) (h : u ≤ v) :
    0 ≤ asInteger u ∧ asInteger u ≤ asInteger v := by
  have hle := UInt32.le_iff_toNat_le.1 h
  have hlt := v.toNat_lt
  rw [asInteger_eq] at hv ⊢
  rw [asInteger_eq]
  split at hv
  · rw [if_pos (by omega), if_pos (by omega)]
    omega
  · omega

/-- An `Integer` that is not negative is in the same order as the `Cardinal`. -/
theorem le_of_asInteger_le {u v : UInt32} (hu : 0 ≤ asInteger u)
    (h : asInteger u ≤ asInteger v) : u ≤ v := by
  have hu_lt := u.toNat_lt
  have hv_lt := v.toNat_lt
  rw [asInteger_eq] at hu h
  rw [asInteger_eq] at h
  refine UInt32.le_iff_toNat_le.2 ?_
  split at hu <;> split at h <;> omega

theorem asInteger_inj {u v : UInt32} (h : asInteger u = asInteger v) : u = v := by
  have hu := u.toNat_lt
  have hv := v.toNat_lt
  rw [asInteger_eq, asInteger_eq] at h
  refine UInt32.toNat_inj.1 ?_
  split at h <;> split at h <;> omega

theorem asInteger_le_max (u : UInt32) : asInteger u ≤ 2147483647 := by
  have hu := u.toNat_lt
  rw [asInteger_eq]
  split <;> omega

namespace Control

/-! ## The thumb -/

/-- `LThumbH` of `MouseMove`. -/
def thumbHeight (c : Control T) : Int :=
  max 24 (mulDiv c.clientHeight c.rows (asInteger c.scrollMax + c.rows))

/-- `LRange` of `MouseMove`: how far the thumb can be moved. -/
def thumbRange (c : Control T) : Int := c.clientHeight - c.thumbHeight

/-- `ScrollThumbRect` at an offset. -/
def thumbAt (offset : UInt32) (c : Control T) : Int × Int :=
  { c with scrollOffset := offset }.scrollThumb

/-- `LNewOffset`. -/
def dragOffset (ay : Int) (c : Control T) : Int :=
  min (max (mulDiv (c.thumbRange - min (max (ay - c.scrollThumbDragOffset) 0) c.thumbRange)
    (asInteger c.scrollMax) c.thumbRange) 0) (asInteger c.scrollMax)

/-- `LDelta`, the lines that a drag scrolls, if the thumb can be moved. -/
def dragLines (ay : Int) (c : Control T) : Int :=
  if c.thumbRange ≤ 0 then 0 else c.dragOffset ay - asInteger c.scrollOffset

theorem scrollByLines_zero (A : Alacritty T R) (c : Control T) : c.scrollByLines A 0 = c :=
  if_pos (.inr rfl)

theorem dragThumb_eq (A : Alacritty T R) (ay : Int) (c : Control T) :
    c.dragThumb A ay = c.scrollByLines A (c.dragLines ay) := by
  rw [dragLines]
  split
  · rename_i hrange
    rw [scrollByLines_zero]
    exact if_pos hrange
  · rename_i hrange
    exact if_neg hrange

/-- The thumb goes through what its height leaves of the track, up from the bottom. -/
theorem thumbAt_eq {c : Control T} (hheight : 0 < c.clientHeight)
    (hinteger : c.clientHeight ≤ 2147483647) (hmax : 1 ≤ asInteger c.scrollMax) {o : UInt32}
    (ho : o ≤ c.scrollMax) :
    (c.thumbAt o).1 =
        scale (max c.thumbRange 0) (asInteger c.scrollMax - asInteger o) (asInteger c.scrollMax) ∧
      (c.thumbAt o).2 = (c.thumbAt o).1 + (c.clientHeight - max c.thumbRange 0) := by
  have hthumb : 24 ≤ c.thumbHeight := le_max_left _ _
  -- the thumb is clipped where it cannot be moved
  have hclip : min c.thumbHeight c.clientHeight = c.clientHeight - max c.thumbRange 0 := by
    unfold thumbRange
    omega
  have hsome : ¬(c.scrollMax = 0 ∨ c.clientHeight ≤ 0) := by
    rintro (hzero | hneg)
    · rw [hzero, asInteger_zero] at hmax
      omega
    · omega
  have horder := asInteger_le (by omega) ho
  have hrange : max c.thumbRange 0 ≤ 2147483647 := by
    unfold thumbRange
    omega
  have hle : scale (max c.thumbRange 0) (asInteger c.scrollMax - asInteger o)
      (asInteger c.scrollMax) ≤ max c.thumbRange 0 :=
    Rounding.scale_le (by omega) (le_max_right _ _) (by omega)
  have hpos := mulDiv_eq_scale (le_max_right c.thumbRange 0)
    (show 0 ≤ asInteger c.scrollMax - asInteger o by omega) (by omega) (hle.trans hrange)
  have hthumbAt : c.thumbAt o = (mulDiv (c.clientHeight - min c.thumbHeight c.clientHeight)
      (asInteger c.scrollMax - asInteger o) (asInteger c.scrollMax),
      mulDiv (c.clientHeight - min c.thumbHeight c.clientHeight)
        (asInteger c.scrollMax - asInteger o) (asInteger c.scrollMax) +
      min c.thumbHeight c.clientHeight) := if_neg hsome
  rw [hthumbAt, hclip, sub_sub_cancel, hpos]
  exact ⟨rfl, rfl⟩

/-- The thumb shows the offset: it stays in the track, is at the bottom for the live
edge and at the top for the oldest line, and goes up with the offset. -/
structure ThumbShows (c : Control T) : Prop where
  inside : ∀ o ≤ c.scrollMax, 0 ≤ (c.thumbAt o).1 ∧ (c.thumbAt o).1 < (c.thumbAt o).2 ∧
    (c.thumbAt o).2 ≤ c.clientHeight
  live : (c.thumbAt 0).2 = c.clientHeight
  oldest : (c.thumbAt c.scrollMax).1 = 0
  upward : ∀ o o', o ≤ o' → o' ≤ c.scrollMax →
    (c.thumbAt o').1 ≤ (c.thumbAt o).1 ∧ (c.thumbAt o').2 ≤ (c.thumbAt o).2

/-- A drag follows the pointer: its offset is one of the history, the oldest line where
the thumb is at the top, the live edge where it is at the bottom, and less below. -/
structure DragFollows (c : Control T) : Prop where
  inside : ∀ ay, 0 ≤ c.dragOffset ay ∧ c.dragOffset ay ≤ asInteger c.scrollMax
  top : ∀ ay, ay - c.scrollThumbDragOffset ≤ 0 → c.dragOffset ay = asInteger c.scrollMax
  bottom : ∀ ay, c.thumbRange ≤ ay - c.scrollThumbDragOffset → c.dragOffset ay = 0
  downward : ∀ ay ay', ay ≤ ay' → c.dragOffset ay' ≤ c.dragOffset ay

theorem thumbShows {c : Control T} (hheight : 0 < c.clientHeight)
    (hinteger : c.clientHeight ≤ 2147483647) (hmax : 1 ≤ asInteger c.scrollMax) :
    c.ThumbShows := by
  have hthumb : 24 ≤ c.thumbHeight := le_max_left _ _
  have hrange : max c.thumbRange 0 < c.clientHeight := by
    unfold thumbRange
    omega
  have hrange_nonneg : 0 ≤ max c.thumbRange 0 := le_max_right _ _
  have hmax_pos : 0 < asInteger c.scrollMax := by omega
  have hzero : (0 : UInt32) ≤ c.scrollMax := UInt32.le_iff_toNat_le.2 (Nat.zero_le _)
  constructor
  · intro o ho
    rcases thumbAt_eq hheight hinteger hmax ho with ⟨htop, hbottom⟩
    have horder := asInteger_le hmax_pos.le ho
    have hnonneg : 0 ≤ (c.thumbAt o).1 := by
      rw [htop]
      exact Rounding.scale_nonneg hmax_pos hrange_nonneg (by omega)
    have hle : (c.thumbAt o).1 ≤ max c.thumbRange 0 := by
      rw [htop]
      exact Rounding.scale_le hmax_pos hrange_nonneg (by omega)
    exact ⟨hnonneg, by omega, by omega⟩
  · rcases thumbAt_eq hheight hinteger hmax hzero with ⟨htop, hbottom⟩
    rw [asInteger_zero, sub_zero, Rounding.scale_self hmax_pos] at htop
    omega
  · rw [(thumbAt_eq hheight hinteger hmax (UInt32.le_refl _)).1, sub_self,
      Rounding.scale_zero hmax_pos]
  · intro o o' hle ho'
    rcases thumbAt_eq hheight hinteger hmax (UInt32.le_trans hle ho') with ⟨htop, hbottom⟩
    rcases thumbAt_eq hheight hinteger hmax ho' with ⟨htop', hbottom'⟩
    have horder := asInteger_le (asInteger_le hmax_pos.le ho').1 hle
    -- a larger offset leaves fewer lines below
    have hup : (c.thumbAt o').1 ≤ (c.thumbAt o).1 := by
      rw [htop, htop']
      exact Rounding.scale_mono hmax_pos hrange_nonneg (by omega)
    exact ⟨hup, by omega⟩

/-! ## The drag -/

/-- The offset of a place of the thumb. -/
theorem dragOffset_eq {c : Control T} (hmax : 1 ≤ asInteger c.scrollMax)
    (hrange : 0 < c.thumbRange) (ay : Int) :
    c.dragOffset ay =
      scale (c.thumbRange - min (max (ay - c.scrollThumbDragOffset) 0) c.thumbRange)
        (asInteger c.scrollMax) c.thumbRange := by
  obtain ⟨left, hleft⟩ :
      ∃ left, c.thumbRange - min (max (ay - c.scrollThumbDragOffset) 0) c.thumbRange = left :=
    ⟨_, rfl⟩
  have hmax_nonneg : 0 ≤ asInteger c.scrollMax := by omega
  -- the clamps of MouseMove never take effect
  have hlow : 0 ≤ scale left (asInteger c.scrollMax) c.thumbRange :=
    Rounding.scale_nonneg hrange (by omega) hmax_nonneg
  have hhigh : scale left (asInteger c.scrollMax) c.thumbRange ≤ asInteger c.scrollMax := by
    rw [Rounding.scale_comm]
    exact Rounding.scale_le hrange hmax_nonneg (by omega)
  have hoffset := mulDiv_eq_scale (show 0 ≤ left by omega) hmax_nonneg hrange
    (hhigh.trans (asInteger_le_max _))
  rw [dragOffset, hleft, hoffset, max_eq_left hlow, min_eq_left hhigh]

theorem dragOffset_bounds {c : Control T} (hmax : 0 ≤ asInteger c.scrollMax) (ay : Int) :
    0 ≤ c.dragOffset ay ∧ c.dragOffset ay ≤ asInteger c.scrollMax :=
  ⟨le_min (le_max_right _ _) hmax, min_le_right _ _⟩

theorem dragFollows {c : Control T} (hmax : 1 ≤ asInteger c.scrollMax)
    (hrange : 0 < c.thumbRange) : c.DragFollows := by
  have hmax_nonneg : 0 ≤ asInteger c.scrollMax := by omega
  constructor
  · exact dragOffset_bounds hmax_nonneg
  · intro ay hay
    rw [dragOffset_eq hmax hrange, max_eq_right hay, min_eq_left hrange.le, sub_zero,
      Rounding.scale_comm, Rounding.scale_self hrange]
  · intro ay hay
    rw [dragOffset_eq hmax hrange, max_eq_left (by omega), min_eq_right hay, sub_self,
      Rounding.scale_comm, Rounding.scale_zero hrange]
  · intro ay ay' hle
    rw [dragOffset_eq hmax hrange, dragOffset_eq hmax hrange]
    exact Rounding.scale_mono_left hrange hmax_nonneg (by omega)

/-- The button goes down on the thumb. -/
structure Grabs (c : Control T) (ax ay : Int) : Prop where
  bar : c.scrollBarLeft ≤ ax ∧ ax ≤ c.clientWidth
  history : c.scrollMax ≠ 0
  thumb : c.scrollThumb.1 ≤ ay ∧ ay ≤ c.scrollThumb.2

/-- The thumb is held. -/
def grabbed (ay : Int) (c : Control T) : Control T :=
  { c with scrollDraggingThumb := true, scrollThumbDragOffset := ay - c.scrollThumb.1 }

theorem trackedCell_bar (A : Alacritty T R) {c : Control T} {ax : Int} (hbar : c.scrollBarLeft ≤ ax)
    (ay : Int) : c.trackedCell A ax ay = none :=
  if_neg fun h => absurd h.2 (not_lt.2 hbar)

theorem mouseDown_grabs (A : Alacritty T R) {c : Control T} {ax ay : Int} (h : c.Grabs ax ay)
    (shift : ShiftState) (now : UInt32) (doubleClick : Int) :
    c.mouseDown A .mbLeft shift ax ay now doubleClick = c.grabbed ay := by
  have hleft : ¬ax < c.scrollBarLeft := not_lt.2 h.bar.1
  have hlink : ¬c.opensLink .mbLeft shift ax ay = true := by
    simp [opensLink, hleft]
  have hreport : c.downReport A .mbLeft shift ax ay = none := by
    rw [downReport, if_neg hlink, trackedCell_bar A h.bar.1]
    rfl
  rw [mouseDown, if_neg hlink, hreport]
  simp only [if_true, if_neg hleft, if_pos h.bar.2, clickScrollBar, if_neg h.history,
    if_pos h.thumb, grabbed]

/-- A move in the scroll bar drags what is held. -/
theorem mouseMove_grabbed (A : Alacritty T R) {c : Control T} {ax : Int}
    (hbar : c.scrollBarLeft ≤ ax) (hselect : c.selectingDrag = false) (shift : ShiftState)
    (ay ay' : Int) :
    (c.grabbed ay).mouseMove A shift ax ay' =
      (c.grabbed ay).scrollByLines A ((c.grabbed ay).dragLines ay') := by
  have hreport : (c.grabbed ay).moveReport A shift ax ay' = none := by
    rw [moveReport, trackedCell_bar A (show (c.grabbed ay).scrollBarLeft ≤ ax from hbar),
      Option.map_none, ite_self]
  have hfree : ¬(c.grabbed ay).selectingDrag = true := by
    simp [grabbed, hselect]
  rw [mouseMove, hreport]
  simp only [if_neg hfree]
  have hheld : (c.grabbed ay).scrollDraggingThumb = true := rfl
  rw [if_pos hheld, dragThumb_eq]

/-- The offset comes back from its place: the thumb cannot be moved, the view is at the
oldest line, or it is in the history and there is a pixel for each line or what the offset
is off its pixel is less than half a line. A history that is no `Integer` has only the
oldest line. -/
def Steady (c : Control T) : Prop :=
  c.thumbRange ≤ 0 ∨ c.scrollOffset = c.scrollMax ∨
    (0 < asInteger c.scrollMax ∧ c.scrollOffset ≤ c.scrollMax ∧
      (asInteger c.scrollMax ≤ c.thumbRange ∨
        2 * (asInteger c.scrollOffset * c.thumbRange % asInteger c.scrollMax) ≤ c.thumbRange ∨
        2 * (asInteger c.scrollMax -
          asInteger c.scrollOffset * c.thumbRange % asInteger c.scrollMax) < c.thumbRange))

theorem dragOffset_grabbed {c : Control T} (hinteger : c.clientHeight ≤ 2147483647)
    (hmax : 1 ≤ asInteger c.scrollMax) (hoffset : c.scrollOffset ≤ c.scrollMax)
    (hrange : 0 < c.thumbRange) (ay : Int) :
    (c.grabbed ay).dragOffset ay =
      scale (c.thumbRange - scale c.thumbRange
        (asInteger c.scrollMax - asInteger c.scrollOffset) (asInteger c.scrollMax))
        (asInteger c.scrollMax) c.thumbRange := by
  have hthumb : 24 ≤ c.thumbHeight := le_max_left _ _
  have hheight : 0 < c.clientHeight := by
    unfold thumbRange at hrange
    omega
  have htop := (thumbAt_eq hheight hinteger hmax hoffset).1
  rw [max_eq_left hrange.le] at htop
  have horder := asInteger_le (by omega) hoffset
  have hnonneg : 0 ≤ (c.thumbAt c.scrollOffset).1 := by
    rw [htop]
    exact Rounding.scale_nonneg (by omega) hrange.le (by omega)
  have hle : (c.thumbAt c.scrollOffset).1 ≤ c.thumbRange := by
    rw [htop]
    exact Rounding.scale_le (by omega) hrange.le (by omega)
  have hplace : ay - (c.grabbed ay).scrollThumbDragOffset = (c.thumbAt c.scrollOffset).1 :=
    sub_sub_cancel ay c.scrollThumb.1
  rw [dragOffset_eq (c := c.grabbed ay) hmax hrange, hplace]
  change scale (c.thumbRange - min (max (c.thumbAt c.scrollOffset).1 0) c.thumbRange) _ _ = _
  rw [max_eq_left hnonneg, min_eq_left hle, htop]
  rfl

/-- A drag that does not move computes the offset of the view exactly if it is steady. -/
theorem grab_steady_iff (A : Alacritty T R) {c : Control T} {ax ay : Int}
    (hinteger : c.clientHeight ≤ 2147483647) (hgrab : c.Grabs ax ay) (shift : ShiftState)
    (now : UInt32) (doubleClick : Int) :
    (c.mouseDown A .mbLeft shift ax ay now doubleClick).dragLines ay = 0 ↔ c.Steady := by
  rw [mouseDown_grabs A hgrab, Steady]
  by_cases hrange : c.thumbRange ≤ 0
  · exact iff_of_true (if_pos hrange) (.inl hrange)
  have hlines : (c.grabbed ay).dragLines ay =
      (c.grabbed ay).dragOffset ay - asInteger c.scrollOffset := if_neg hrange
  rw [hlines, sub_eq_zero, or_iff_right hrange]
  -- a history of 2^31 lines and more is negative as an Integer
  rcases lt_trichotomy (asInteger c.scrollMax) 0 with hneg | hzero | hpos
  · -- the upper bound is below the lower one, and is taken last
    have hclip : (c.grabbed ay).dragOffset ay = asInteger c.scrollMax :=
      min_eq_right (hneg.le.trans (le_max_right _ _))
    rw [hclip]
    constructor
    · intro heq
      exact .inl (asInteger_inj heq.symm)
    · rintro (heq | ⟨hpos, _⟩)
      · rw [heq]
      · omega
  · exact absurd (asInteger_inj (hzero.trans asInteger_zero.symm)) hgrab.history
  by_cases hoffset : c.scrollOffset ≤ c.scrollMax
  · rw [dragOffset_grabbed hinteger hpos hoffset (not_le.1 hrange),
      Rounding.scale_back_iff hpos (not_le.1 hrange)]
    constructor
    · intro hsteady
      exact .inr ⟨hpos, hoffset, hsteady⟩
    · rintro (heq | ⟨_, _, hsteady⟩)
      · refine .inr (.inl ?_)
        rw [heq, Int.mul_emod_right, mul_zero]
        exact (not_le.1 hrange).le
      · exact hsteady
  · -- a drag never leaves the history
    rcases (c.grabbed ay).dragOffset_bounds hpos.le ay with ⟨hlow, hhigh⟩
    constructor
    · intro heq
      rw [heq] at hlow hhigh
      exact absurd (le_of_asInteger_le hlow hhigh) hoffset
    · rintro (heq | ⟨_, hle, _⟩)
      · exact absurd (heq ▸ UInt32.le_refl _) hoffset
      · exact absurd hle hoffset

end Control

/-! ## A short track -/

/-- A window of 30 pixels, in which the thumb moves by 6, with a history of 20 lines. -/
def scrolled (offset : Int32) : Control Plain :=
  ((((Control.create 8 16 172 30).start plain 100).output plain
    [List.replicate 20 10]).handleRenderMessage plain).scroll plain offset

/-- One line up, the thumb is at the bottom: held there, it takes the view back. -/
theorem grab_scrolls :
    (scrolled 1).Grabs 165 10 ∧ (scrolled 1).scrollOffset = 1 ∧
      ((scrolled 1).mouseDown plain .mbLeft noKeys 165 10 0 500).dragLines 10 ≠ 0 ∧
      (((scrolled 1).mouseDown plain .mbLeft noKeys 165 10 0 500).mouseMove plain noKeys
        165 10).scrollOffset = 0 :=
  ⟨⟨by decide +kernel, by decide +kernel, by decide +kernel⟩, by decide +kernel,
    by decide +kernel, by decide +kernel⟩

/-- Ten lines up, it is on a whole pixel. -/
theorem grab_keeps :
    ((scrolled 10).mouseDown plain .mbLeft noKeys 165 10 0 500).dragLines 10 = 0 :=
  (Control.grab_steady_iff plain (by decide +kernel)
    ⟨by decide +kernel, by decide +kernel, by decide +kernel⟩ noKeys 0 500).2
    (.inr (.inr (by decide +kernel)))

end RataShell.Input
