import RataShell.Lib.Grid
import RataShell.Control.Mouse

/-!
# The hyperlink overlay

`Paint` underlines the cells of hyperlinks: a row is gone through for runs of linked
cells, and each run is one line, in the pen of the hovered link if the first cell
of the run is of that link.

* `linkRuns_isRun`, `linkRuns_covers`: the runs of a row.
* `moveHover_under`: a hovered link is the one under the mouse.
* `underlined_iff`, `overlaid_iff`: what is underlined, and the grids where each cell
  is so in its own pen.
-/

namespace RataShell.Input

open Term (Alacritty HostCell Plain plain rowOf)

variable {T R : Type}

/-! ## Runs of links -/

/-- A run of linked cells: its first column, the one behind it, and `LRunHl`. -/
structure LinkRun where
  start : Nat
  stop : Nat
  hl : UInt32
deriving DecidableEq, Repr

/-- The runs from a column on, where `run` is `LRunStart` and `LRunHl` if a run is under
way. It may end with the row. -/
def linkRunsFrom (cols col : Nat) (run : Option (Nat × UInt32)) : List HostCell → List LinkRun
  | [] =>
      match run with
      | some (start, hl) => [⟨start, cols, hl⟩]
      | none => []
  | c :: cs =>
      if c.hyperlinkId ≠ 0 then
        match run with
        | some run => linkRunsFrom cols (col + 1) (some run) cs
        | none => linkRunsFrom cols (col + 1) (some (col, c.hyperlinkId)) cs
      else
        match run with
        | some (start, hl) => ⟨start, col, hl⟩ :: linkRunsFrom cols (col + 1) none cs
        | none => linkRunsFrom cols (col + 1) none cs

/-- The runs of a row. -/
def linkRuns (cols : Nat) (cells : List HostCell) : List LinkRun := linkRunsFrom cols 0 none cells

/-- A line, drawn from `MoveToEx` to `LineTo`, which does not draw its end. -/
structure Stroke where
  hover : Bool
  left : Int
  right : Int
  y : Int
deriving DecidableEq, Repr

/-- The pixel is on the line. -/
def Stroke.Has (s : Stroke) (x y : Int) : Prop := s.y = y ∧ s.left ≤ x ∧ x < s.right

instance (s : Stroke) (x y : Int) : Decidable (s.Has x y) := inferInstanceAs (Decidable (_ ∧ _))

namespace Control

/-- The line of a run: `LPenHover` or `LPenNormal`. -/
def stroke (hover : UInt32) (row : Nat) (c : Control T) (run : LinkRun) : Stroke where
  hover := run.hl = hover
  left := run.start * c.cellW
  right := run.stop * c.cellW
  y := (row + 1) * c.cellH - 1

/-- The overlay of `Paint`, where `hover` is `FHoverHyperlinkId`. -/
def hyperlinkOverlay (hover : UInt32) (c : Control T) : List Stroke :=
  if 0 < c.lastCells.length ∧ 0 < c.lastCols.toNat then
    (List.range c.lastRows.toNat).flatMap fun row =>
      (linkRuns c.lastCols.toNat (rowOf c.lastCols.toNat c.lastCells row)).map (c.stroke hover row)
  else []

variable (A : Alacritty T R)

/-- `FHoverHyperlinkId` after `MouseMove`, where it was `hover` before. -/
def moveHover (shift : ShiftState) (ax ay : Int) (hover : UInt32) (c : Control T) : UInt32 :=
  match c.moveReport A shift ax ay with
  | some _ => hover
  | none =>
      if !c.isMouseTrackingActive A ∧ !c.selectingDrag ∧ !c.scrollDraggingThumb ∧
          0 ≤ ax ∧ ax < c.scrollBarLeft ∧ 0 ≤ ay ∧ ay < c.clientHeight then
        match c.mouseToCell ax ay with
        | some (col, row) => c.hyperlinkAt (col - 1) (row - 1)
        | none => 0
      else 0

/-- The pixel is on the underline of a cell. -/
def Under (col row : Nat) (x y : Int) (c : Control T) : Prop :=
  y = (row + 1) * c.cellH - 1 ∧ col * c.cellW ≤ x ∧ x < (col + 1) * c.cellW

instance (col row : Nat) (x y : Int) (c : Control T) : Decidable (c.Under col row x y) :=
  inferInstanceAs (Decidable (_ ∧ _))

/-- Exactly the linked cells are underlined, each in the pen of its own link. -/
def Overlaid (hover : UInt32) (c : Control T) : Prop :=
  (∀ x y : Int, (∃ s ∈ c.hyperlinkOverlay hover, s.Has x y) ↔
    ∃ col row, c.Under col row x y ∧ c.hyperlinkAt col row ≠ 0) ∧
  ∀ s ∈ c.hyperlinkOverlay hover, ∀ col row x y, s.Has x y → c.Under col row x y →
    (s.hover = true ↔ c.hyperlinkAt col row = hover)

end Control

/-! ## What the runs are -/

/-- A run: its cells are linked, it has the id of the first, and it goes as far as it
can. -/
structure IsRun (id : Nat → UInt32) (cols : Nat) (r : LinkRun) : Prop where
  first : r.hl = id r.start
  linked : ∀ k, r.start ≤ k → k < r.stop → id k ≠ 0
  stop_le : r.stop ≤ cols
  maximal : r.stop < cols → id r.stop = 0

/-- The run under way. -/
def Open (id : Nat → UInt32) (col : Nat) (run : Option (Nat × UInt32)) : Prop :=
  ∀ start hl, run = some (start, hl) →
    start < col ∧ hl = id start ∧ ∀ k, start ≤ k → k < col → id k ≠ 0

/-- The ids from a column on are those of the cells. -/
def IdsFrom (id : Nat → UInt32) (col : Nat) (cells : List HostCell) : Prop :=
  ∀ k c, cells[k]? = some c → id (col + k) = c.hyperlinkId

variable {id : Nat → UInt32} {cols col : Nat}

theorem Open.none : Open id col none := fun _ _ h => by cases h

theorem Open.start (hlink : id col ≠ 0) : Open id (col + 1) (some (col, id col)) := by
  intro start hl h
  cases h
  refine ⟨Nat.lt_succ_self col, rfl, ?_⟩
  intro k hk hk'
  rw [show k = col by omega]
  exact hlink

theorem Open.extend {run : Nat × UInt32} (hopen : Open id col (some run)) (hlink : id col ≠ 0) :
    Open id (col + 1) (some run) := by
  intro start hl h
  rcases hopen start hl h with ⟨hlt, hfirst, hlinked⟩
  refine ⟨by omega, hfirst, ?_⟩
  intro k hk hk'
  rcases Nat.lt_or_ge k col with hbefore | hge
  · exact hlinked k hk hbefore
  · rw [show k = col by omega]
    exact hlink

theorem IdsFrom.head {c : HostCell} {cs : List HostCell} (hid : IdsFrom id col (c :: cs)) :
    id col = c.hyperlinkId := hid 0 c rfl

theorem IdsFrom.tail {c : HostCell} {cs : List HostCell} (hid : IdsFrom id col (c :: cs)) :
    IdsFrom id (col + 1) cs := by
  intro k d hd
  rw [Nat.add_right_comm, Nat.add_assoc]
  exact hid (k + 1) d hd

theorem linkRunsFrom_isRun {cells : List HostCell} {run : Option (Nat × UInt32)}
    (hopen : Open id col run) (hcols : col + cells.length = cols) (hid : IdsFrom id col cells) :
    ∀ r ∈ linkRunsFrom cols col run cells, IsRun id cols r := by
  -- the run under way is what the columns before have left
  induction cells generalizing col run with
  | nil =>
      rw [List.length_nil, Nat.add_zero] at hcols
      subst hcols
      cases run with
      | none => simp [linkRunsFrom]
      | some run =>
          rcases hopen run.1 run.2 rfl with ⟨_, hfirst, hlinked⟩
          intro r hr
          rw [linkRunsFrom, List.mem_singleton] at hr
          rw [hr]
          exact ⟨hfirst, hlinked, Nat.le_refl col, fun hlt => absurd hlt (Nat.lt_irrefl col)⟩
  | cons c cs ih =>
      rw [List.length_cons] at hcols
      have hrest : col + 1 + cs.length = cols := by omega
      unfold linkRunsFrom
      split
      -- a linked cell goes on with the run, or begins one
      · rename_i hlink
        rw [← hid.head] at hlink ⊢
        cases run with
        | some run => exact ih (hopen.extend hlink) hrest hid.tail
        | none => exact ih (Open.start hlink) hrest hid.tail
      -- a cell without a link ends it
      · rename_i hgap
        rw [not_not, ← hid.head] at hgap
        cases run with
        | none => exact ih Open.none hrest hid.tail
        | some run =>
            rcases hopen run.1 run.2 rfl with ⟨_, hfirst, hlinked⟩
            have hcol : col ≤ cols := by omega
            intro r hr
            rcases List.mem_cons.1 hr with rfl | hmem
            · exact ⟨hfirst, hlinked, hcol, fun _ => hgap⟩
            · exact ih Open.none hrest hid.tail r hmem

/-- A linked cell, ahead or in the run under way, is in a run. -/
theorem linkRunsFrom_covers {cells : List HostCell} {run : Option (Nat × UInt32)}
    (hopen : Open id col run) (hcols : col + cells.length = cols) (hid : IdsFrom id col cells)
    {k : Nat} (hk : k < cols) (hlink : id k ≠ 0)
    (hreach : col ≤ k ∨ ∃ start hl, run = some (start, hl) ∧ start ≤ k) :
    ∃ r ∈ linkRunsFrom cols col run cells, r.start ≤ k ∧ k < r.stop := by
  induction cells generalizing col run with
  | nil =>
      rw [List.length_nil, Nat.add_zero] at hcols
      rcases hreach with hge | ⟨start, hl, rfl, hstart⟩
      · omega
      · exact ⟨_, List.mem_singleton_self _, hstart, hk⟩
  | cons c cs ih =>
      rw [List.length_cons] at hcols
      have hrest : col + 1 + cs.length = cols := by omega
      unfold linkRunsFrom
      split
      · rename_i hhere
        rw [← hid.head] at hhere ⊢
        cases run with
        | some run =>
            have hstart : run.1 ≤ k := by
              rcases hreach with hge | ⟨start, hl, hrun, hstart⟩
              · exact Nat.le_trans (Nat.le_of_lt (hopen run.1 run.2 rfl).1) hge
              · cases hrun
                exact hstart
            exact ih (hopen.extend hhere) hrest hid.tail (Or.inr ⟨run.1, run.2, rfl, hstart⟩)
        | none =>
            rcases hreach with hge | ⟨_, _, hrun, _⟩
            · exact ih (Open.start hhere) hrest hid.tail (Or.inr ⟨col, id col, rfl, hge⟩)
            · cases hrun
      · rename_i hgap
        rw [not_not, ← hid.head] at hgap
        have hne : k ≠ col := fun h => hlink (h ▸ hgap)
        cases run with
        | none =>
            rcases hreach with hge | ⟨_, _, hrun, _⟩
            · exact ih Open.none hrest hid.tail (Or.inl (by omega))
            · cases hrun
        | some run =>
            -- the run that ends here, or one behind it
            rcases Nat.lt_or_ge k col with hbefore | hge
            · rcases hreach with hge | ⟨start, hl, hrun, hstart⟩
              · omega
              · cases hrun
                exact ⟨_, List.mem_cons_self, hstart, hbefore⟩
            · rcases ih Open.none hrest hid.tail (Or.inl (by omega)) with ⟨r, hr, hcover⟩
              exact ⟨r, List.mem_cons_of_mem _ hr, hcover⟩

theorem linkRuns_isRun {cells : List HostCell} (hcols : cells.length = cols)
    (hid : IdsFrom id 0 cells) : ∀ r ∈ linkRuns cols cells, IsRun id cols r :=
  linkRunsFrom_isRun Open.none (by omega) hid

/-- The columns of the runs are those of the linked cells. -/
theorem linkRuns_covers {cells : List HostCell} (hcols : cells.length = cols)
    (hid : IdsFrom id 0 cells) {k : Nat} (hk : k < cols) :
    (∃ r ∈ linkRuns cols cells, r.start ≤ k ∧ k < r.stop) ↔ id k ≠ 0 := by
  constructor
  · intro ⟨r, hr, hstart, hstop⟩
    exact (linkRuns_isRun hcols hid r hr).linked k hstart hstop
  · intro hlink
    exact linkRunsFrom_covers Open.none (by omega) hid hk hlink (Or.inl (Nat.zero_le k))

/-- Neighbours in a run agree on being the hovered link: the cells of the run do. -/
theorem IsRun.hovered {r : LinkRun} (hrun : IsRun id cols r) {hover : UInt32}
    (hnext : ∀ k, id k ≠ 0 → id (k + 1) ≠ 0 → (id k = hover ↔ id (k + 1) = hover)) {k : Nat}
    (hstart : r.start ≤ k) (hstop : k < r.stop) : r.hl = hover ↔ id k = hover := by
  induction k, hstart using Nat.le_induction with
  | base => rw [hrun.first]
  | succ k hle ih =>
      have hbefore : k < r.stop := by omega
      have hagree := hnext k (hrun.linked k hle hbefore) (hrun.linked (k + 1) (by omega) hstop)
      rw [ih hbefore, hagree]

/-- A run with a linked cell has the linked cell behind it. -/
theorem IsRun.next {r : LinkRun} (hrun : IsRun id cols r) {k : Nat} (hstop : k < r.stop)
    (hcols : k + 1 < cols) (hlink : id (k + 1) ≠ 0) : k + 1 < r.stop := by
  rcases Nat.lt_or_ge (k + 1) r.stop with hlt | hge
  · exact hlt
  · have heq : r.stop = k + 1 := by omega
    exact absurd (heq ▸ hrun.maximal (heq ▸ hcols)) hlink

/-! ## The cells of a row -/

namespace Control

theorem lt_of_hyperlinkAt {c : Control T} {col row : Nat} (hlink : c.hyperlinkAt col row ≠ 0) :
    col < c.lastCols.toNat ∧ row < c.lastRows.toNat := by
  unfold hyperlinkAt at hlink
  split at hlink
  · exact absurd rfl hlink
  · omega

/-- The cells of a grid: `FLastCols` times `FLastRows`. -/
def HasGrid (c : Control T) : Prop := c.lastRows.toNat * c.lastCols.toNat ≤ c.lastCells.length

instance (c : Control T) : Decidable c.HasGrid := inferInstanceAs (Decidable (_ ≤ _))

theorem idsFrom_row (c : Control T) {row : Nat} (hrow : row < c.lastRows.toNat) :
    IdsFrom (fun k => c.hyperlinkAt k row) 0 (rowOf c.lastCols.toNat c.lastCells row) := by
  intro k d hd
  have hk : k < c.lastCols.toNat := by
    rcases List.getElem?_eq_some_iff.1 hd with ⟨hlt, _⟩
    rw [rowOf, List.length_take] at hlt
    omega
  rw [Term.getElem?_rowOf hk] at hd
  have hin : ¬(c.lastCols.toNat ≤ k ∨ c.lastRows.toNat ≤ row) := by omega
  simp only [Nat.zero_add, hyperlinkAt, if_neg hin, hd, Option.map_some, Option.getD_some]

theorem mem_hyperlinkOverlay {hover : UInt32} {c : Control T} {s : Stroke} :
    s ∈ c.hyperlinkOverlay hover ↔ ∃ row < c.lastRows.toNat,
      ∃ r ∈ linkRuns c.lastCols.toNat (rowOf c.lastCols.toNat c.lastCells row),
        c.stroke hover row r = s := by
  unfold hyperlinkOverlay
  split
  · simp only [List.mem_flatMap, List.mem_range, List.mem_map]
  · rename_i hempty
    -- a grid without cells has no runs either
    have hnone : ∀ row, rowOf c.lastCols.toNat c.lastCells row = [] := by
      intro row
      rw [rowOf, ← List.length_eq_zero_iff, List.length_take, List.length_drop]
      omega
    simp [hnone, linkRuns, linkRunsFrom]

/-! ## Pixels -/

theorem has_stroke {hover : UInt32} {c : Control T} (hw : 0 < c.cellW) (hh : 0 < c.cellH)
    {col row line : Nat} {x y : Int} (hunder : c.Under col row x y) {r : LinkRun} :
    (c.stroke hover line r).Has x y ↔ line = row ∧ r.start ≤ col ∧ col < r.stop := by
  rcases hunder with ⟨hy, hleft, hright⟩
  have hrow : ((line : Int) + 1) * c.cellH - 1 = y ↔ line = row := by
    rw [hy, sub_left_inj, mul_eq_mul_right_iff]
    omega
  have hspan : Grid.Span c.cellW col x := ⟨hleft, hright⟩
  simp only [Stroke.Has, stroke, hrow, hspan.start_le_iff hw, ← not_le]

/-- A pixel of a line is under a cell of its row. -/
theorem exists_under {hover : UInt32} {c : Control T} (hw : 0 < c.cellW) {row : Nat} {r : LinkRun}
    {x y : Int} (hhas : (c.stroke hover row r).Has x y) : ∃ col, c.Under col row x y := by
  rcases hhas with ⟨hy, hleft, _⟩
  have hx : 0 ≤ x := le_trans (mul_nonneg (Int.natCast_nonneg _) hw.le) hleft
  exact ⟨(x / c.cellW).toNat, hy.symm, Grid.span_div hw hx⟩

/-! ## The overlay -/

/-- The underlined cells are the linked ones, whatever their ids. -/
theorem underlined_iff {c : Control T} (hw : 0 < c.cellW) (hh : 0 < c.cellH) (hgrid : c.HasGrid)
    (hover : UInt32) (x y : Int) : (∃ s ∈ c.hyperlinkOverlay hover, s.Has x y) ↔
      ∃ col row, c.Under col row x y ∧ c.hyperlinkAt col row ≠ 0 := by
  constructor
  · intro ⟨s, hs, hhas⟩
    rcases mem_hyperlinkOverlay.1 hs with ⟨row, hrow, r, hr, rfl⟩
    rcases exists_under hw hhas with ⟨col, hunder⟩
    rcases (has_stroke hw hh hunder).1 hhas with ⟨_, hstart, hstop⟩
    have hrun := linkRuns_isRun (Term.length_rowOf hgrid hrow) (c.idsFrom_row hrow) r hr
    exact ⟨col, row, hunder, hrun.linked col hstart hstop⟩
  · intro ⟨col, row, hunder, hlink⟩
    rcases lt_of_hyperlinkAt hlink with ⟨hcol, hrow⟩
    rcases (linkRuns_covers (Term.length_rowOf hgrid hrow) (c.idsFrom_row hrow) hcol).2 hlink with
      ⟨r, hr, hstart, hstop⟩
    exact ⟨_, mem_hyperlinkOverlay.2 ⟨row, hrow, r, hr, rfl⟩,
      (has_stroke hw hh hunder).2 ⟨rfl, hstart, hstop⟩⟩

/-- The overlay is right exactly if the links that touch are both hovered or both not. -/
theorem overlaid_iff {c : Control T} (hw : 0 < c.cellW) (hh : 0 < c.cellH) (hgrid : c.HasGrid)
    (hover : UInt32) : c.Overlaid hover ↔
      ∀ col row, c.hyperlinkAt col row ≠ 0 → c.hyperlinkAt (col + 1) row ≠ 0 →
        (c.hyperlinkAt col row = hover ↔ c.hyperlinkAt (col + 1) row = hover) := by
  constructor
  · intro hoverlaid col row hlink hnext
    rcases lt_of_hyperlinkAt hnext with ⟨hcol, hrow⟩
    have hlength := Term.length_rowOf hgrid hrow
    rcases (linkRuns_covers hlength (c.idsFrom_row hrow) (Nat.lt_of_succ_lt hcol)).2 hlink with
      ⟨r, hr, hstart, hstop⟩
    have hrun := linkRuns_isRun hlength (c.idsFrom_row hrow) r hr
    have hmem : c.stroke hover row r ∈ c.hyperlinkOverlay hover :=
      mem_hyperlinkOverlay.2 ⟨row, hrow, r, hr, rfl⟩
    -- the two cells are over one line
    have hpen : ∀ k, r.start ≤ k → k < r.stop →
        ((c.stroke hover row r).hover = true ↔ c.hyperlinkAt k row = hover) := by
      intro k hk hk'
      have hunder : c.Under k row (k * c.cellW) ((row + 1) * c.cellH - 1) :=
        ⟨rfl, le_refl _, by rw [add_mul, one_mul]; omega⟩
      exact hoverlaid.2 _ hmem k row _ _ ((has_stroke hw hh hunder).2 ⟨rfl, hk, hk'⟩) hunder
    exact (hpen col hstart hstop).symm.trans
      (hpen (col + 1) (by omega) (hrun.next hstop hcol hnext))
  · intro hagree
    refine ⟨underlined_iff hw hh hgrid hover, ?_⟩
    intro s hs col row x y hhas hunder
    rcases mem_hyperlinkOverlay.1 hs with ⟨line, hline, r, hr, rfl⟩
    rcases (has_stroke hw hh hunder).1 hhas with ⟨rfl, hstart, hstop⟩
    have hrun := linkRuns_isRun (Term.length_rowOf hgrid hline) (c.idsFrom_row hline) r hr
    have hpen : r.hl = hover ↔ c.hyperlinkAt col line = hover :=
      hrun.hovered (fun k => hagree k line) hstart hstop
    rw [← hpen]
    exact decide_eq_true_iff

/-- A hovered link is that of the cell under the mouse. -/
theorem moveHover_under {A : Alacritty T R} {c : Control T} {shift : ShiftState} {ax ay : Int}
    (hreport : c.moveReport A shift ax ay = none) {hover : UInt32}
    (hhover : c.moveHover A shift ax ay hover ≠ 0) :
    ∃ col row : Nat, (col * c.cellW ≤ ax ∧ ax < (col + 1) * c.cellW) ∧
      (row * c.cellH ≤ ay ∧ ay < (row + 1) * c.cellH) ∧
      c.hyperlinkAt col row = c.moveHover A shift ax ay hover := by
  simp only [moveHover, hreport] at hhover ⊢
  split at hhover
  · rename_i hwhere
    rw [if_pos hwhere]
    rcases hwhere with ⟨_, _, _, hx, _, hy, _⟩
    by_cases hcell : c.cellW ≤ 0 ∨ c.cellH ≤ 0
    · rw [mouseToCell, if_pos hcell] at hhover
      exact absurd rfl hhover
    · have hw : 0 < c.cellW := by omega
      have hh : 0 < c.cellH := by omega
      rw [mouseToCell, if_neg hcell, max_eq_left hx, max_eq_left hy,
        Int.tdiv_eq_ediv_of_nonneg hx, Int.tdiv_eq_ediv_of_nonneg hy]
      exact ⟨(ax / c.cellW).toNat, (ay / c.cellH).toNat, Grid.span_div hw hx,
        Grid.span_div hh hy, rfl⟩
  · exact absurd rfl hhover

end Control

/-! ## Two links side by side -/

/-- A row of cells with links. -/
def linkedRow (ids : List UInt32) : Control Plain :=
  { Control.create 8 16 652 384 with
    lastCells := ids.map fun id => ⟨0x61, 0, 0, 0, 1, id⟩
    lastCols := ids.length.toUInt16
    lastRows := 1 }

/-- The mouse is on the second of two links that touch: the pen is the one of the first. -/
theorem touching_misdrawn :
    (linkedRow [1, 2]).HasGrid ∧
      (linkedRow [1, 2]).moveHover plain ⟨false, false, false, false, false, false⟩ 12 5 0 = 2 ∧
      ¬(linkedRow [1, 2]).Overlaid 2 := by
  refine ⟨by decide +kernel, by decide +kernel, fun hoverlaid => ?_⟩
  have hline : ⟨false, 0, 16, 15⟩ ∈ (linkedRow [1, 2]).hyperlinkOverlay 2 := by decide +kernel
  have hunder : (linkedRow [1, 2]).Under 1 0 8 15 := by decide +kernel
  have hpen := hoverlaid.2 _ hline 1 0 8 15 (by decide +kernel) hunder
  exact absurd (hpen.2 (by decide +kernel)) (by decide +kernel)

/-- With a cell between them both are right. -/
theorem apart_overlaid : (linkedRow [1, 0, 2]).Overlaid 2 := by
  have hapart : ∀ col < 2,
      (linkedRow [1, 0, 2]).hyperlinkAt col 0 = 0 ∨
        (linkedRow [1, 0, 2]).hyperlinkAt (col + 1) 0 = 0 := by
    decide +kernel
  refine (Control.overlaid_iff (by decide +kernel) (by decide +kernel) (by decide +kernel) 2).2 ?_
  intro col row hlink hnext
  rcases Control.lt_of_hyperlinkAt hnext with ⟨hcol, hrow⟩
  have hcol' : col + 1 < 3 := hcol
  have hrow' : row < 1 := hrow
  rw [Nat.lt_one_iff.1 hrow'] at hlink hnext
  rcases hapart col (by omega) with h | h
  · exact absurd h hlink
  · exact absurd h hnext

end RataShell.Input
