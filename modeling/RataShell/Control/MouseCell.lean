import RataShell.Lib.Grid
import RataShell.Control.Messages

/-!
# The cell under the mouse

`MouseToCell` divides a position by the size of a cell; `CalcCols` and `CalcRows`
divide the window by it. The handlers take any cell that comes out of the first.

* `Points`: the cells that a press, a move or a release reports or selects.
* `points_hit_iff`: they are those of the grid under the mouse, except in the strip
  that the last whole column or row leaves.
-/

namespace RataShell.Input

open Term (Alacritty Plain plain)

variable {T R : Type}

namespace Control

variable (A : Alacritty T R)

/-! ## Cells that are reported or selected -/

/-- The cell at which `MouseDown` starts a selection. -/
def selectedCell (button : MouseButton) (shift : ShiftState) (ax ay : Int) (c : Control T) :
    Option (Nat × Nat) :=
  if ¬c.opensLink button shift ax ay ∧ button = .mbLeft ∧ ax < c.scrollBarLeft ∧
      ¬c.isMouseTrackingActive A then
    c.mouseToCell ax ay
  else none

/-- The cell to which `MouseMove` extends it. -/
def extendedCell (shift : ShiftState) (ax ay : Int) (c : Control T) : Option (Nat × Nat) :=
  if c.moveReport A shift ax ay = none ∧ c.selectingDrag then c.mouseToCell ax ay else none

/-- A cell, counted from 1, that a handler reports or selects for a position. -/
inductive Points (c : Control T) (ax ay : Int) : Nat → Nat → Prop
  | down {button shift r} (h : c.downReport A button shift ax ay = some r) :
      Points c ax ay r.col r.row
  | move {shift r} (h : c.moveReport A shift ax ay = some r) : Points c ax ay r.col r.row
  | up {button shift r} (h : c.upReport A button shift ax ay = some r) : Points c ax ay r.col r.row
  | select {button shift col row} (h : c.selectedCell A button shift ax ay = some (col, row)) :
      Points c ax ay col row
  | extend {shift col row} (h : c.extendedCell A shift ax ay = some (col, row)) :
      Points c ax ay col row

variable {A}

/-- The press starts a selection at the selected cell. -/
theorem mouseDown_selectedCell {button : MouseButton} {shift : ShiftState} {ax ay : Int}
    {c : Control T} {col row : Nat} (h : c.selectedCell A button shift ax ay = some (col, row))
    (now : UInt32) (doubleClick : Int) :
    c.mouseDown A button shift ax ay now doubleClick =
      c.startSelection A shift ax ay col row now doubleClick := by
  unfold selectedCell at h
  split at h
  · rename_i hguard
    rcases hguard with ⟨hlink, hbutton, hleft, htrack⟩
    have htracked : c.trackedCell A ax ay = none := if_neg fun hand => htrack hand.1
    have hreport : c.downReport A button shift ax ay = none := by
      rw [downReport, if_neg hlink, htracked]
      rfl
    rw [mouseDown, if_neg hlink, hreport]
    simp only [if_pos hbutton, if_pos hleft, if_neg htrack, h]
  · simp at h

/-- The move extends it to the extended cell. -/
theorem mouseMove_extendedCell {shift : ShiftState} {ax ay : Int} {c : Control T} {col row : Nat}
    (h : c.extendedCell A shift ax ay = some (col, row)) :
    ∃ c' : Control T, c'.session = c.session ∧
      c.mouseMove A shift ax ay =
        c'.selectionExtend A (word (col - 1 : Nat)) (word (row - 1 : Nat)) := by
  unfold extendedCell at h
  split at h
  · rename_i hguard
    rcases hguard with ⟨hreport, hdrag⟩
    have hmove : c.mouseMove A shift ax ay = c.dragSelection A ax ay := by
      rw [mouseMove, hreport]
      exact if_pos hdrag
    rw [hmove]
    unfold dragSelection
    -- the timer of the automatic scroll is set before, whatever it is
    have hcell : ∀ timer dir last, mouseToCell ax ay { c with
        autoScrollTimer := timer, autoScrollDir := dir, autoScrollLastX := last } =
          some (col, row) := fun _ _ _ => h
    split
    · simp only [hcell true (-1) ax]
      exact ⟨_, by rfl, rfl⟩
    · split
      · simp only [hcell true 1 ax]
        exact ⟨_, by rfl, rfl⟩
      · simp only [hcell false 0 c.autoScrollLastX]
        exact ⟨_, by rfl, rfl⟩
  · simp at h

theorem trackedCell_mouseToCell {ax ay : Int} {c : Control T} {p : Nat × Nat}
    (h : c.trackedCell A ax ay = some p) : c.mouseToCell ax ay = some p := by
  unfold trackedCell at h
  split at h
  · exact h
  · simp at h

theorem Points.mouseToCell {c : Control T} {ax ay : Int} {col row : Nat}
    (h : c.Points A ax ay col row) : c.mouseToCell ax ay = some (col, row) := by
  -- every report is of the tracked cell
  have hreport : ∀ {cb : Nat} {r : Report},
      (c.trackedCell A ax ay).map (fun p => ⟨cb, p.1, p.2⟩) = some r →
        c.mouseToCell ax ay = some (r.col, r.row) := by
    intro cb r hr
    rcases Option.map_eq_some_iff.1 hr with ⟨p, hp, rfl⟩
    exact trackedCell_mouseToCell hp
  cases h with
  | down h =>
      unfold downReport at h
      split at h
      · simp at h
      · exact hreport h
  | move h =>
      unfold moveReport at h
      split at h
      · exact hreport h
      · simp at h
  | up h => exact hreport h
  | select h =>
      unfold selectedCell at h
      split at h
      · exact h
      · simp at h
  | extend h =>
      unfold extendedCell at h
      split at h
      · exact h
      · simp at h

/-- Left of the scroll bar, a press of the left button alone reports or selects. -/
theorem exists_points {c : Control T} {ax ay : Int} (hleft : ax < c.scrollBarLeft)
    {col row : Nat} (hcell : c.mouseToCell ax ay = some (col, row)) :
    c.Points A ax ay col row := by
  have hlink : ¬c.opensLink .mbLeft noKeys ax ay = true := by simp [opensLink, noKeys]
  by_cases htrack : c.isMouseTrackingActive A = true
  · have hdown : c.downReport A .mbLeft noKeys ax ay =
        some ⟨buttonCode .mbLeft ||| mouseModifiersBits noKeys, col, row⟩ := by
      rw [downReport, if_neg hlink, trackedCell, if_pos ⟨htrack, hleft⟩, hcell]
      rfl
    exact .down hdown
  · have hselect : c.selectedCell A .mbLeft noKeys ax ay = some (col, row) := by
      rw [selectedCell, if_pos ⟨hlink, rfl, hleft, htrack⟩, hcell]
    exact .select hselect

/-! ## The grid -/

/-- The square of how far a position is from a cell, counted from 1. -/
def distance (col row : Nat) (ax ay : Int) (c : Control T) : Nat :=
  Grid.gap c.cellW (col - 1) ax ^ 2 + Grid.gap c.cellH (row - 1) ay ^ 2

/-- A cell is at distance 0 exactly if its rectangle holds the position. -/
theorem distance_eq_zero_iff {c : Control T} {ax ay : Int} {col row : Nat} :
    c.distance col row ax ay = 0 ↔
      Grid.Span c.cellW (col - 1) ax ∧ Grid.Span c.cellH (row - 1) ay := by
  rw [distance, Nat.add_eq_zero_iff, pow_eq_zero_iff two_ne_zero, pow_eq_zero_iff two_ne_zero,
    Grid.gap_eq_zero_iff, Grid.gap_eq_zero_iff]

/-- The cell is one of the grid, and none of the grid is nearer to the position. -/
structure Hits (c : Control T) (ax ay : Int) (col row : Nat) : Prop where
  col_pos : 1 ≤ col
  col_le : col ≤ c.calcCols
  row_pos : 1 ≤ row
  row_le : row ≤ c.calcRows
  nearest : ∀ i j : Nat, 1 ≤ i → i ≤ c.calcCols → 1 ≤ j → j ≤ c.calcRows →
    c.distance col row ax ay ≤ c.distance i j ax ay

/-- What the last whole column leaves at the right, or the last whole row below. -/
def InMargin (c : Control T) (ax ay : Int) : Prop :=
  (c.cellW ≤ c.scrollBarLeft ∧ c.scrollBarLeft - c.scrollBarLeft % c.cellW ≤ ax) ∨
    (c.cellH ≤ c.clientHeight ∧ c.clientHeight - c.clientHeight % c.cellH ≤ ay)

/-- The pointed cell of every position is one of the grid, outside of the margin. -/
theorem points_hit_iff {c : Control T} {ax ay : Int} (hw : 1 ≤ c.cellW) (hh : 1 ≤ c.cellH)
    (hx : 0 ≤ ax) (hleft : ax < c.scrollBarLeft) (hy : 0 ≤ ay) (hbelow : ay < c.clientHeight) :
    (∀ col row, c.Points A ax ay col row → c.Hits ax ay col row) ↔ ¬c.InMargin ax ay := by
  have hcell : c.mouseToCell ax ay = some ((ax / c.cellW).toNat + 1, (ay / c.cellH).toNat + 1) := by
    rw [mouseToCell, if_neg (by omega), max_eq_left hx, max_eq_left hy,
      Int.tdiv_eq_ediv_of_nonneg hx, Int.tdiv_eq_ediv_of_nonneg hy]
  have hcols : c.calcCols = max 1 (c.scrollBarLeft / c.cellW) := by
    have hwidth : 0 ≤ c.clientWidth - 12 := by
      unfold scrollBarLeft at hleft
      omega
    rw [calcCols, scrollBarLeft, Int.tdiv_eq_ediv_of_nonneg hwidth]
  have hrows : c.calcRows = max 1 (c.clientHeight / c.cellH) := by
    rw [calcRows, Int.tdiv_eq_ediv_of_nonneg (by omega)]
  have hcol := Grid.div_lt_fit_iff (w := c.cellW) (by omega) hx hleft
  have hrow := Grid.div_lt_fit_iff (w := c.cellH) (by omega) hy hbelow
  have hcol_nonneg : 0 ≤ ax / c.cellW := Int.ediv_nonneg hx (by omega)
  have hrow_nonneg : 0 ≤ ay / c.cellH := Int.ediv_nonneg hy (by omega)
  -- the two divisions are by the same size, so that they differ by the remainder
  rw [← hcols] at hcol
  rw [← hrows] at hrow
  rw [InMargin, not_or, ← hcol, ← hrow]
  constructor
  · intro hhits
    have hhit := hhits _ _ (exists_points hleft hcell)
    have hcol_le := hhit.col_le
    have hrow_le := hhit.row_le
    exact ⟨by omega, by omega⟩
  · intro ⟨hcol_lt, hrow_lt⟩ col row hpoints
    rw [hpoints.mouseToCell, Option.some_inj, Prod.mk.injEq] at hcell
    rcases hcell with ⟨rfl, rfl⟩
    have hzero : c.distance ((ax / c.cellW).toNat + 1) ((ay / c.cellH).toNat + 1) ax ay = 0 :=
      distance_eq_zero_iff.2 ⟨Grid.span_div (by omega) hx, Grid.span_div (by omega) hy⟩
    exact {
      col_pos := Nat.le_add_left 1 _
      col_le := by omega
      row_pos := Nat.le_add_left 1 _
      row_le := by omega
      nearest := fun i j _ _ _ _ => hzero ▸ Nat.zero_le _ }

end Control

/-! ## A window that is no multiple of a cell -/

/-- 80 columns of 8 and 24 rows of 16, and 7 pixels at the right. -/
def uneven : Control Plain := (Control.create 8 16 659 384).start plain 0

/-- A press in the 7 pixels selects in column 81. -/
theorem strip_selected :
    uneven.calcCols = 80 ∧ uneven.Points plain 645 100 81 7 ∧ ¬uneven.Hits 645 100 81 7 := by
  have hcols : uneven.calcCols = 80 := by decide +kernel
  have hselect : uneven.selectedCell plain .mbLeft noKeys 645 100 = some (81, 7) := by
    decide +kernel
  refine ⟨hcols, .select hselect, fun hhit => ?_⟩
  have hcol := hhit.col_le
  rw [hcols] at hcol
  omega

/-- A press in the last column selects in it. -/
theorem last_column_hit : uneven.Hits 639 100 80 7 := by
  have hselect : uneven.selectedCell plain .mbLeft noKeys 639 100 = some (80, 7) := by
    decide +kernel
  have hinner : ¬uneven.InMargin 639 100 := by
    unfold Control.InMargin
    decide +kernel
  exact (Control.points_hit_iff (by decide) (by decide) (by decide) (by decide) (by decide)
    (by decide)).2 hinner 80 7 (.select hselect)

end RataShell.Input
