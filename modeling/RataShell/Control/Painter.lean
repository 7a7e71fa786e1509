import RataShell.Term.Backend

/-!
# The painter

`TRataPainter` as far as the inversion of pixels goes: it draws the cells of an
event in runs, which shows no inversion any more where a run goes, and inverts the
rectangle of the cursor.

* `covers_of_paired`: the runs of a row go over all of it where each cell of width 0
  is behind a wide one.
* `drawEvent_inverted`: the pixels inverted after an event.
-/

namespace RataShell.Cursor

open Term (DEFAULT_FLAG HostCell RenderSnapshot rowOf)

/-! ## Rectangles -/

/-- `TRect`; the right and the bottom are not in it. -/
structure Rect where
  left : Int
  top : Int
  right : Int
  bottom : Int
deriving DecidableEq, Repr

/-- The pixel is in the rectangle. -/
def Rect.Has (r : Rect) (x y : Nat) : Prop :=
  (r.left ≤ x ∧ (x : Int) < r.right) ∧ r.top ≤ y ∧ (y : Int) < r.bottom

instance (r : Rect) (x y : Nat) : Decidable (r.Has x y) :=
  inferInstanceAs (Decidable ((_ ∧ _) ∧ _ ∧ _))

/-- The rectangle of a cursor style at a cell, in `DrawEvent` and in `Paint`. -/
def cursorRect (cellW cellH : Nat) (style : UInt8) (col row : Nat) : Rect :=
  if style = 2 ∨ style = 3 then
    ⟨col * cellW, row * cellH + cellH - 2, col * cellW + cellW, row * cellH + cellH⟩
  else if style = 5 ∨ style = 6 then
    ⟨col * cellW, row * cellH, col * cellW + 2, row * cellH + cellH⟩
  else ⟨col * cellW, row * cellH, col * cellW + cellW, row * cellH + cellH⟩

/-! ## Runs -/

/-- The defaults of `TRataColors`. -/
structure Colors where
  defaultFg : UInt32
  defaultBg : UInt32
deriving DecidableEq, Repr

/-- `RGB`. -/
def rgb (r g b : UInt32) : UInt32 := r ||| (g <<< 8) ||| (b <<< 16)

/-- `ResolveColor`. -/
def resolveColor (value default : UInt32) : UInt32 :=
  if value &&& DEFAULT_FLAG ≠ 0 then default
  else rgb ((value >>> 16) &&& 0xFF) ((value >>> 8) &&& 0xFF) (value &&& 0xFF)

def RATA_ATTR_REVERSE : UInt16 := 0x0020

/-- What the cells of a run have in common. -/
structure Style where
  fg : UInt32
  bg : UInt32
  attrs : UInt16
deriving DecidableEq, Repr

def styleOf (colors : Colors) (c : HostCell) : Style :=
  let fg := resolveColor c.fg colors.defaultFg
  let bg := resolveColor c.bg colors.defaultBg
  if c.attrs &&& RATA_ATTR_REVERSE ≠ 0 then ⟨bg, fg, c.attrs⟩ else ⟨fg, bg, c.attrs⟩

/-- `LRunStartX` and `LRunCols`. -/
structure Run where
  start : Nat
  cols : Nat
deriving DecidableEq, Repr

/-- The run goes over a column. -/
def Run.Covers (r : Run) (col : Nat) : Prop := r.start ≤ col ∧ col < r.start + r.cols

instance (r : Run) (col : Nat) : Decidable (r.Covers col) := inferInstanceAs (Decidable (_ ∧ _))

/-- `FlushRun`. -/
def flushRun (run : Run) : List Run := if run.cols = 0 then [] else [run]

/-- The runs of the cells from a column on, with the run under way and its style. -/
def runsFrom (colors : Colors) : Nat → Run → Style → List HostCell → List Run
  | _, run, _, [] => flushRun run
  | col, run, prev, c :: cs =>
      -- the second half of a wide character
      if c.width = 0 then runsFrom colors (col + 1) run prev cs
      else if run.cols = 0 ∨ prev ≠ styleOf colors c then
        flushRun run ++ runsFrom colors (col + 1) ⟨col, c.width.toNat⟩ (styleOf colors c) cs
      else runsFrom colors (col + 1) ⟨run.start, run.cols + c.width.toNat⟩ prev cs

/-- The runs of a row. -/
def rowRuns (colors : Colors) (cells : List HostCell) : List Run :=
  runsFrom colors 0 ⟨0, 0⟩ ⟨0, 0, 0xFFFF⟩ cells

/-- The runs of each row of an event go over all its columns. -/
def Painted (colors : Colors) (ev : RenderSnapshot) : Prop :=
  ∀ row < ev.rows.toNat, ∀ col < ev.cols.toNat,
    ∃ run ∈ rowRuns colors (rowOf ev.cols.toNat ev.cells row), run.Covers col

instance (colors : Colors) (ev : RenderSnapshot) : Decidable (Painted colors ev) :=
  inferInstanceAs (Decidable (∀ row < ev.rows.toNat, ∀ col < ev.cols.toNat,
    ∃ run ∈ rowRuns colors (rowOf ev.cols.toNat ev.cells row), run.Covers col))

/-- Each cell of width 0 is behind one of width 2, where `width` is that of the cell
before. -/
def Paired (width : UInt8) : List HostCell → Prop
  | [] => True
  | c :: cs => (c.width = 0 → width = 2) ∧ Paired c.width cs

theorem covers_flushRun {run : Run} {col : Nat} (h : run.Covers col) :
    ∃ r ∈ flushRun run, r.Covers col := by
  have hcols : run.cols ≠ 0 := by
    rcases h with ⟨hstart, hstop⟩
    omega
  exact ⟨run, by simp [flushRun, hcols], h⟩

/-- The run under way reaches the next column, and the one behind where the cell
before is wide. -/
theorem runsFrom_covers (colors : Colors) {cells : List HostCell} {width : UInt8}
    (hpaired : Paired width cells) {col : Nat} {run : Run} {prev : Style}
    (hreach : col + (if width = 2 then 1 else 0) ≤ run.start + run.cols) {k : Nat}
    (hstart : run.start ≤ k) (hk : k < col + cells.length) :
    ∃ r ∈ runsFrom colors col run prev cells, r.Covers k := by
  -- what is behind the run is covered by a later one
  induction cells generalizing width col run prev with
  | nil =>
      rw [List.length_nil, Nat.add_zero] at hk
      exact covers_flushRun ⟨hstart, by omega⟩
  | cons c cs ih =>
      rcases hpaired with ⟨hzero, hrest⟩
      rw [List.length_cons] at hk
      have hwidth : c.width ≠ 0 → (if c.width = 2 then 1 else 0) + 1 ≤ c.width.toNat := by
        intro hne
        have hpos : c.width.toNat ≠ 0 := fun h => hne (UInt8.toNat_inj.1 h)
        split
        · rename_i htwo
          rw [htwo]
          decide
        · omega
      unfold runsFrom
      split
      · -- a cell of width 0 is skipped: the run has gone over it with the wide one before
        rename_i hc
        rw [if_pos (hzero hc)] at hreach
        refine ih hrest ?_ hstart (by omega)
        rw [hc, if_neg (by decide)]
        exact hreach
      · rename_i hc
        have hreach' := hwidth hc
        split
        · -- a new run begins at this column
          rcases Nat.lt_or_ge k col with hlt | hge
          · have hcovers : run.Covers k := ⟨hstart, by omega⟩
            rcases covers_flushRun hcovers with ⟨r, hr, hcovers⟩
            exact ⟨r, List.mem_append_left _ hr, hcovers⟩
          · have hreach : col + 1 + (if c.width = 2 then 1 else 0) ≤ col + c.width.toNat := by
              omega
            have hnew : ∃ r ∈ runsFrom colors (col + 1) ⟨col, c.width.toNat⟩ (styleOf colors c) cs,
                r.Covers k := ih hrest hreach hge (by omega)
            rcases hnew with ⟨r, hr, hcovers⟩
            exact ⟨r, List.mem_append_right _ hr, hcovers⟩
        · refine ih hrest ?_ hstart (by omega)
          show _ ≤ run.start + (run.cols + c.width.toNat)
          omega

/-- The runs of a row whose wide characters are whole go over all of it. -/
theorem covers_of_paired (colors : Colors) {cells : List HostCell} (hpaired : Paired 1 cells)
    {col : Nat} (hcol : col < cells.length) : ∃ r ∈ rowRuns colors cells, r.Covers col :=
  runsFrom_covers colors hpaired (by decide) (Nat.zero_le col) (by omega)

/-! ## The back buffer -/

/-- `TRataPainter`: the pixels of a cell, `FCols` and `FRows`, the pixels of the back
buffer and which of them are inverted. -/
structure Painter where
  cellW : Nat
  cellH : Nat
  cols : Nat
  rows : Nat
  width : Nat
  height : Nat
  inverted : Nat → Nat → Bool
  colors : Colors

namespace Painter

/-- `RecreateBuffer`. -/
def recreateBuffer (p : Painter) : Painter :=
  if p.width ≠ max 1 (p.cols * p.cellW) ∨ p.height ≠ max 1 (p.rows * p.cellH) then
    { p with
      width := max 1 (p.cols * p.cellW)
      height := max 1 (p.rows * p.cellH)
      inverted := fun _ _ => false }
  else p

/-- `MeasureCell`, of a font with cells of that size. -/
def measureCell (w h : Int) (p : Painter) : Painter :=
  { p with cellW := if w < 1 then 8 else w.toNat, cellH := if h < 1 then 16 else h.toNat }

/-- `Create`, with the default font. -/
def create (w h : Int) (colors : Colors) : Painter :=
  measureCell w h ⟨0, 0, 0, 0, 0, 0, fun _ _ => false, colors⟩

/-- `Resize`. -/
def resize (cols rows : Int) (p : Painter) : Painter :=
  { p with cols := (max 1 cols).toNat, rows := (max 1 rows).toNat }.recreateBuffer

/-- The rectangle of a run. -/
def runRect (row : Nat) (run : Run) (p : Painter) : Rect :=
  ⟨run.start * p.cellW, row * p.cellH, (run.start + run.cols) * p.cellW, (row + 1) * p.cellH⟩

/-- The pixel is in the rectangle of a run of the cells. -/
def Draws (cells : List HostCell) (p : Painter) (x y : Nat) : Prop :=
  ∃ row < p.rows, ∃ run ∈ rowRuns p.colors (rowOf p.cols cells row), (p.runRect row run).Has x y

instance (cells : List HostCell) (p : Painter) (x y : Nat) : Decidable (p.Draws cells x y) :=
  inferInstanceAs (Decidable (∃ row < p.rows,
    ∃ run ∈ rowRuns p.colors (rowOf p.cols cells row), (p.runRect row run).Has x y))

/-- The rows of `DrawEvent`. -/
def drawCells (cells : List HostCell) (p : Painter) : Painter :=
  { p with inverted := fun x y => p.inverted x y && !decide (p.Draws cells x y) }

/-- `InvertRect` on the back buffer. -/
def invertRect (r : Rect) (p : Painter) : Painter :=
  { p with
    inverted := fun x y => p.inverted x y ^^ decide (r.Has x y ∧ x < p.width ∧ y < p.height) }

/-- `DrawEvent` adapts to the size of the event. -/
def adapt (ev : RenderSnapshot) (p : Painter) : Painter :=
  if ev.cols.toNat ≠ p.cols ∨ ev.rows.toNat ≠ p.rows then
    { p with cols := ev.cols.toNat, rows := ev.rows.toNat }.recreateBuffer
  else p

/-- The cursor of `DrawEvent`. -/
def drawCursor (ev : RenderSnapshot) (p : Painter) : Painter :=
  if ev.cursorVisible = true ∧ ev.cursorX.toNat < p.cols ∧ ev.cursorY.toNat < p.rows then
    p.invertRect (cursorRect p.cellW p.cellH ev.cursorStyle ev.cursorX.toNat ev.cursorY.toNat)
  else p

/-- `DrawEvent`. -/
def drawEvent (ev : RenderSnapshot) (p : Painter) : Painter :=
  ((p.adapt ev).drawCells ev.cells).drawCursor ev

/-- The back buffer has the size of the cells, and no pixel out of it is inverted. -/
structure Sized (p : Painter) : Prop where
  cellW : 0 < p.cellW
  cellH : 0 < p.cellH
  width : p.width = max 1 (p.cols * p.cellW)
  height : p.height = max 1 (p.rows * p.cellH)
  clipped : ∀ x y, p.inverted x y = true → x < p.width ∧ y < p.height

theorem recreateBuffer_sized {p : Painter} (hW : 0 < p.cellW) (hH : 0 < p.cellH)
    (hclipped : ∀ x y, p.inverted x y = true → x < p.width ∧ y < p.height) :
    p.recreateBuffer.Sized := by
  unfold recreateBuffer
  split
  · exact ⟨hW, hH, rfl, rfl, by simp⟩
  · rename_i hsame
    rw [not_or, not_not, not_not] at hsame
    exact ⟨hW, hH, hsame.1, hsame.2, hclipped⟩

theorem measureCell_pos (w h : Int) (p : Painter) :
    0 < (p.measureCell w h).cellW ∧ 0 < (p.measureCell w h).cellH := by
  constructor
  · show 0 < if w < 1 then 8 else w.toNat
    split <;> omega
  · show 0 < if h < 1 then 16 else h.toNat
    split <;> omega

/-- After a new font or a new size. -/
theorem resize_sized (w h cols rows : Int) {p : Painter}
    (hclipped : ∀ x y, p.inverted x y = true → x < p.width ∧ y < p.height) :
    ((p.measureCell w h).resize cols rows).Sized := by
  have hpos := measureCell_pos w h p
  exact recreateBuffer_sized hpos.1 hpos.2 hclipped

/-- The size of the cells stays, and that in cells is that of the event. -/
theorem adapt_spec {p : Painter} (ev : RenderSnapshot) (hp : p.Sized) :
    (p.adapt ev).Sized ∧ (p.adapt ev).cellW = p.cellW ∧ (p.adapt ev).cellH = p.cellH ∧
      (p.adapt ev).cols = ev.cols.toNat ∧ (p.adapt ev).rows = ev.rows.toNat ∧
        (p.adapt ev).colors = p.colors := by
  unfold adapt
  split
  · refine ⟨recreateBuffer_sized hp.cellW hp.cellH hp.clipped, ?_⟩
    unfold recreateBuffer
    split <;> exact ⟨rfl, rfl, rfl, rfl, rfl⟩
  · rename_i hsame
    rw [not_or, not_not, not_not] at hsame
    exact ⟨hp, rfl, rfl, hsame.1.symm, hsame.2.symm, rfl⟩

/-- Runs over all columns go over all pixels of the buffer. -/
theorem draws_of_painted {p : Painter} {ev : RenderSnapshot} (hp : p.Sized)
    (hcols : p.cols = ev.cols.toNat) (hrows : p.rows = ev.rows.toNat)
    (hpainted : Painted p.colors ev) {x y : Nat} (hx : x < p.cols * p.cellW)
    (hy : y < p.rows * p.cellH) : p.Draws ev.cells x y := by
  have hcol : x / p.cellW < p.cols := (Nat.div_lt_iff_lt_mul hp.cellW).2 hx
  have hrow : y / p.cellH < p.rows := (Nat.div_lt_iff_lt_mul hp.cellH).2 hy
  rcases hpainted _ (hrows ▸ hrow) _ (hcols ▸ hcol) with ⟨run, hrun, hstart, hstop⟩
  refine ⟨y / p.cellH, hrow, run, hcols ▸ hrun, ?_⟩
  have hleft : run.start * p.cellW ≤ x := (Nat.le_div_iff_mul_le hp.cellW).1 hstart
  have hright : x < (run.start + run.cols) * p.cellW := (Nat.div_lt_iff_lt_mul hp.cellW).1 hstop
  have htop : y / p.cellH * p.cellH ≤ y := Nat.div_mul_le_self y p.cellH
  have hbottom : y < (y / p.cellH + 1) * p.cellH :=
    (Nat.div_lt_iff_lt_mul hp.cellH).1 (Nat.lt_succ_self _)
  have hhas := And.intro (And.intro hleft hright) (And.intro htop hbottom)
  simp only [Rect.Has, runRect]
  exact_mod_cast hhas

/-- No inversion is left behind the cells. -/
theorem drawCells_inverted {p : Painter} {ev : RenderSnapshot} (hp : p.Sized)
    (hcols : p.cols = ev.cols.toNat) (hrows : p.rows = ev.rows.toNat) (hpos : 0 < ev.cols.toNat)
    (hpos' : 0 < ev.rows.toNat) (hpainted : Painted p.colors ev) (x y : Nat) :
    (p.drawCells ev.cells).inverted x y = false := by
  have hwidth : p.width = p.cols * p.cellW := by
    rw [hp.width]
    exact Nat.max_eq_right (Nat.mul_pos (hcols ▸ hpos) hp.cellW)
  have hheight : p.height = p.rows * p.cellH := by
    rw [hp.height]
    exact Nat.max_eq_right (Nat.mul_pos (hrows ▸ hpos') hp.cellH)
  -- a pixel that was inverted is one of the buffer, and so one that is drawn
  show (p.inverted x y && !decide (p.Draws ev.cells x y)) = false
  cases hinverted : p.inverted x y with
  | false => rfl
  | true =>
      rcases hp.clipped x y hinverted with ⟨hx, hy⟩
      have hdraws := draws_of_painted hp hcols hrows hpainted (hwidth ▸ hx) (hheight ▸ hy)
      simp [hdraws]

theorem drawCursor_sized {p : Painter} (ev : RenderSnapshot) (hp : p.Sized) :
    (p.drawCursor ev).Sized ∧ (p.drawCursor ev).cellW = p.cellW ∧
      (p.drawCursor ev).cellH = p.cellH := by
  unfold drawCursor
  split
  · refine ⟨⟨hp.cellW, hp.cellH, hp.width, hp.height, fun x y h => ?_⟩, rfl, rfl⟩
    simp only [invertRect] at h
    cases hinverted : p.inverted x y with
    | true => exact hp.clipped x y hinverted
    | false =>
        rw [hinverted, Bool.false_xor, decide_eq_true_eq] at h
        exact h.2
  · exact ⟨hp, rfl, rfl⟩

theorem drawEvent_sized {p : Painter} (ev : RenderSnapshot) (hp : p.Sized) :
    (p.drawEvent ev).Sized ∧ (p.drawEvent ev).cellW = p.cellW ∧
      (p.drawEvent ev).cellH = p.cellH := by
  rcases adapt_spec ev hp with ⟨hsized, hcellW, hcellH, -⟩
  have hcells : ((p.adapt ev).drawCells ev.cells).Sized := by
    refine ⟨hsized.cellW, hsized.cellH, hsized.width, hsized.height, fun x y h => ?_⟩
    exact hsized.clipped x y (Bool.and_eq_true_iff.1 h).1
  rcases drawCursor_sized ev hcells with ⟨hdrawn, hW, hH⟩
  exact ⟨hdrawn, hW.trans hcellW, hH.trans hcellH⟩

/-- After an event whose cells are all painted, the pixels of its cursor are inverted
and no others. -/
theorem drawEvent_inverted {p : Painter} (ev : RenderSnapshot) (hp : p.Sized)
    (hpos : 0 < ev.cols.toNat) (hpos' : 0 < ev.rows.toNat) (hpainted : Painted p.colors ev)
    (hx : ev.cursorX.toNat < ev.cols.toNat) (hy : ev.cursorY.toNat < ev.rows.toNat) (x y : Nat) :
    (p.drawEvent ev).inverted x y = true ↔
      ev.cursorVisible = true ∧
        (cursorRect p.cellW p.cellH ev.cursorStyle ev.cursorX.toNat ev.cursorY.toNat).Has x y ∧
          x < ev.cols.toNat * p.cellW ∧ y < ev.rows.toNat * p.cellH := by
  rcases adapt_spec ev hp with ⟨hsized, hcellW, hcellH, hcols, hrows, hcolors⟩
  have hcells := drawCells_inverted hsized hcols hrows hpos hpos' (hcolors ▸ hpainted)
  have hwidth : (p.adapt ev).width = ev.cols.toNat * p.cellW := by
    rw [hsized.width, hcols, hcellW]
    exact Nat.max_eq_right (Nat.mul_pos hpos hp.cellW)
  have hheight : (p.adapt ev).height = ev.rows.toNat * p.cellH := by
    rw [hsized.height, hrows, hcellH]
    exact Nat.max_eq_right (Nat.mul_pos hpos' hp.cellH)
  unfold drawEvent drawCursor
  simp only [show ((p.adapt ev).drawCells ev.cells).cols = ev.cols.toNat from hcols,
    show ((p.adapt ev).drawCells ev.cells).rows = ev.rows.toNat from hrows, hx, hy, and_true]
  split
  · rename_i hvisible
    simp only [invertRect, hcells, Bool.false_xor, decide_eq_true_eq, hvisible, true_and,
      show ((p.adapt ev).drawCells ev.cells).cellW = p.cellW from hcellW,
      show ((p.adapt ev).drawCells ev.cells).cellH = p.cellH from hcellH,
      show ((p.adapt ev).drawCells ev.cells).width = _ from hwidth,
      show ((p.adapt ev).drawCells ev.cells).height = _ from hheight]
  · rename_i hhidden
    simp [hcells, hhidden]

end Painter

end RataShell.Cursor
