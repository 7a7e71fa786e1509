import RataShell.Term.Freshness
import RataShell.Term.Hyperlink
import RataShell.Term.Search

/-!
# The viewport

The points of the grid that the viewport shows, and the places where the code
goes from one to the other: the cells and the cursor of a snapshot, the two ends
of a selection, and the match of a search.

* `viewPoints`: the point behind each cell of a frame.
* `viewed_reachable`: in every run of a host, snapshot, selection and cursor go
  by the same points, all of them in the grid.
* `searchNext_shows`: a search returns the cell that shows the start of its
  match, with the least scroll.
-/

namespace RataShell.Term

open Sizes (Size)

variable {T R : Type}

/-- The grid by a point; alacritty panics outside. -/
def Grid.index (g : Grid) (p : Point) : Option Cell :=
  if g.Has p then some (g.cell p.line p.column) else none

/-- The display offset is within the history, the cursor within the columns. -/
def Grid.InView (g : Grid) : Prop := g.displayOffset ≤ g.historySize ∧ g.cursor.column < g.columns

/-- What the code relies on: alacritty keeps the view and the cursor so. -/
structure LawfulView (A : Alacritty T R) : Prop where
  new : ∀ (cols rows : UInt16) scrollback,
    (A.grid (A.new (Size.new cols.toNat rows.toNat) scrollback)).InView
  resize : ∀ (cols rows : UInt16) t,
    (A.grid t).InView → (A.grid (A.resize (Size.new cols.toNat rows.toNat) t)).InView
  advance : ∀ bytes t, (A.grid t).InView → (A.grid (A.advance bytes t)).InView
  clearSaved : ∀ t, (A.grid t).InView → (A.grid (A.clearSaved t)).InView
  toggleViMode : ∀ t, (A.grid t).InView → (A.grid (A.toggleViMode t)).InView
  viMotion : ∀ m t, (A.grid t).InView → (A.grid (A.viMotion m t)).InView
  selectionStart : ∀ ty p t, (A.grid t).InView → (A.grid (A.selectionStart ty p t)).InView
  selectionUpdate : ∀ p t, (A.grid t).InView → (A.grid (A.selectionUpdate p t)).InView

namespace TermHost

variable (A : Alacritty T R)

/-! ## Points of the viewport -/

/-- The points that a snapshot reads, row by row. -/
def viewPoints (t : TermHost T) : List Point :=
  (List.range t.size.lines).flatMap fun row : Nat =>
    (List.range t.size.cols).map fun col => ⟨row - t.displayOffset A, col⟩

/-- The number of a cell of a frame. -/
def cellIndex (col row : Nat) (t : TermHost T) : Nat := row * t.size.cols + col

/-- The host goes by the points of the viewport, and these are in the grid. -/
structure Viewed (t : TermHost T) : Prop where
  reads : (t.viewPoints A).map (A.grid t.term).index = (t.viewCells A).map some
  length : (t.cells A).length = (t.snapshotMeta A).cols.toNat * (t.snapshotMeta A).rows.toNat
  cell : ∀ col row, col < t.size.cols → row < t.size.lines →
    (t.viewPoints A)[t.cellIndex col row]? = some ⟨row - t.displayOffset A, col⟩ ∧
      (t.cells A)[t.cellIndex col row]? =
        some (hostCell ((A.grid t.term).cell (row - t.displayOffset A) col))
  selection : ∀ (col row : UInt16) kind, col.toNat < t.size.cols → row.toNat < t.size.lines →
    ∃ p ty, (t.viewPoints A)[t.cellIndex col.toNat row.toNat]? = some p ∧
      (t.selectionStart A col row kind).term = A.selectionStart ty p t.term ∧
      (t.selectionExtend A col row).term = A.selectionUpdate p t.term
  cursor : (t.snapshotMeta A).cursorVisible = true →
    (t.snapshotMeta A).cursorX < (t.snapshotMeta A).cols ∧
      (t.snapshotMeta A).cursorY < (t.snapshotMeta A).rows ∧
      (t.viewPoints A)[t.cellIndex (t.snapshotMeta A).cursorX.toNat
        (t.snapshotMeta A).cursorY.toNat]? = some (A.grid t.term).cursor ∧
      (t.cells A)[t.cellIndex (t.snapshotMeta A).cursorX.toNat
        (t.snapshotMeta A).cursorY.toNat]? =
          some (hostCell
            ((A.grid t.term).cell (A.grid t.term).cursor.line (A.grid t.term).cursor.column))
  hidden : ¬ t.CursorInView A → (t.snapshotMeta A).cursorVisible = false

variable {A} {t t' : TermHost T}

theorem viewCells_eq (t : TermHost T) :
    t.viewCells A = (t.viewPoints A).map fun p => (A.grid t.term).cell p.line p.column := by
  simp only [viewCells, viewPoints, List.map_flatMap, List.map_map]
  rfl

theorem getElem?_viewPoints {col row : Nat} (hcol : col < t.size.cols) (hrow : row < t.size.lines) :
    (t.viewPoints A)[t.cellIndex col row]? = some ⟨row - t.displayOffset A, col⟩ := by
  rw [viewPoints, cellIndex, getElem?_flatMap_range (by simp) hrow hcol]
  simp [hcol]

/-- At every display offset within the history, the viewport lies in the grid. -/
theorem viewPoints_has (hsized : t.Sized A) (hoffset : t.displayOffset A ≤ t.historySize A)
    {p : Point} (hp : p ∈ t.viewPoints A) : (A.grid t.term).Has p := by
  simp only [Sized, Alacritty.dims, Prod.mk.injEq] at hsized
  simp only [viewPoints, List.mem_flatMap, List.mem_map, List.mem_range] at hp
  rcases hp with ⟨row, hrow, col, hcol, rfl⟩
  simp only [displayOffset, historySize] at hoffset
  simp only [Grid.Has, displayOffset, hsized.1, hsized.2]
  omega

/-- The columns and rows of a frame are those of the host. -/
theorem meta_toNat (t : TermHost T) :
    (t.snapshotMeta A).cols.toNat = t.size.cols ∧ (t.snapshotMeta A).rows.toNat = t.size.lines := by
  rcases t.size_bounds with ⟨⟨-, hcols⟩, -, hlines⟩
  exact ⟨UInt16.toNat_ofNat_of_lt' hcols, UInt16.toNat_ofNat_of_lt' hlines⟩

/-- A cursor in view is not moved by the clamps. -/
theorem meta_cursor (hsized : t.Sized A) (hview : (A.grid t.term).InView)
    (hin : t.CursorInView A) :
    (t.snapshotMeta A).cursorX.toNat = (A.grid t.term).cursor.column ∧
      (((t.snapshotMeta A).cursorY.toNat : Nat) : Int) = t.cursorLine A ∧
      (A.grid t.term).cursor.column < t.size.cols := by
  rcases t.size_bounds with ⟨⟨-, hcols⟩, -, hlines⟩
  rcases hin with ⟨hlow, hhigh⟩
  have hcolumn := hview.2
  simp only [Sized, Alacritty.dims, Prod.mk.injEq] at hsized
  rw [hsized.1] at hcolumn
  have hX : (A.grid t.term).cursor.column < 65536 := by omega
  have hY : (t.cursorLine A).toNat < 65536 := by omega
  have hmin : min (A.grid t.term).cursor.column (t.size.cols - 1) =
      (A.grid t.term).cursor.column := by omega
  have hclamp : min (max (t.cursorLine A) 0) (t.size.lines - 1) = t.cursorLine A := by omega
  refine ⟨?_, ?_, hcolumn⟩
  · rw [snapshotMeta, hmin]
    exact UInt16.toNat_ofNat_of_lt' hX
  · rw [snapshotMeta, hclamp, UInt16.toNat_ofNat_of_lt' hY]
    exact Int.toNat_of_nonneg hlow

theorem cursorInView_of_visible (hvisible : (t.snapshotMeta A).cursorVisible = true) :
    t.CursorInView A := by
  simp only [snapshotMeta, Bool.and_eq_true, decide_eq_true_eq] at hvisible
  exact hvisible.2

/-- Where grid and host have one size and the view is within the history, the
host goes by the points of the viewport. -/
theorem viewed (hsized : t.Sized A) (hview : (A.grid t.term).InView) : t.Viewed A where
  reads := by
    rw [viewCells_eq, List.map_map]
    refine List.map_congr_left fun p hp => ?_
    exact if_pos (viewPoints_has hsized hview.1 hp)
  length := by
    rw [length_cells, (meta_toNat t).1, (meta_toNat t).2, Nat.mul_comm]
  cell col row hcol hrow := ⟨getElem?_viewPoints hcol hrow, getElem?_cells A hrow hcol⟩
  selection col row kind hcol hrow := ⟨_, _, getElem?_viewPoints hcol hrow, rfl, rfl⟩
  cursor hvisible := by
    have hin := cursorInView_of_visible hvisible
    rcases meta_cursor hsized hview hin with ⟨hX, hY, hcol⟩
    have hrow : (t.snapshotMeta A).cursorY.toNat < t.size.lines := by
      have hhigh := hin.2
      omega
    have hcol' : (t.snapshotMeta A).cursorX.toNat < t.size.cols := by omega
    have hpoint : (t.viewPoints A)[t.cellIndex (t.snapshotMeta A).cursorX.toNat
        (t.snapshotMeta A).cursorY.toNat]? = some (A.grid t.term).cursor := by
      rw [getElem?_viewPoints hcol' hrow, hX, hY, cursorLine, Int.add_sub_cancel]
    refine ⟨?_, ?_, hpoint, ?_⟩
    · rw [UInt16.lt_iff_toNat_lt, (meta_toNat t).1]
      exact hcol'
    · rw [UInt16.lt_iff_toNat_lt, (meta_toNat t).2]
      exact hrow
    · rw [cells, viewCells_eq, List.getElem?_map, List.getElem?_map, hpoint]
      rfl
  hidden hout := by
    simp only [snapshotMeta, Bool.and_eq_false_iff, decide_eq_false_iff_not]
    exact .inr hout

/-! ## Runs of a host -/

theorem inView_scroll (hA : Lawful A) (sc : Scroll) {t : T} (ht : (A.grid t).InView) :
    (A.grid (A.scrollDisplay sc t)).InView := by
  rw [hA.scroll_grid]
  refine ⟨?_, ht.2⟩
  have hoffset := ht.1
  cases sc with
  | Delta lines => exact Nat.min_le_right _ _
  | Top => exact Nat.le_refl _
  | Bottom => exact Nat.zero_le _

theorem inView_showLine (hA : Lawful A) (line : Int) (ht : (A.grid t.term).InView) :
    (A.grid (t.showLine A line).term).InView := by
  rcases showLine_cases A line t with hsame | ⟨sc, hscroll⟩
  · rw [hsame]
    exact ht
  · rw [hscroll]
    exact inView_scroll hA sc ht

theorem inView_searchNext (hA : Lawful A) (pattern : String) (forward : Bool)
    (ht : (A.grid t.term).InView) : (A.grid (t.searchNext A pattern forward).1.term).InView := by
  have hpattern : (A.grid (t.setPattern pattern).term).InView := by rwa [setPattern_term]
  unfold searchNext
  split
  · exact ht
  · split
    · exact ht
    · split
      · exact hpattern
      · exact inView_showLine hA _ hpattern

theorem inView_call (hA : Lawful A) (hV : LawfulView A) (op : Op) (ht : (A.grid t.term).InView) :
    (A.grid (op.host A t).term).InView := by
  cases op with
  | resize cols rows => exact hV.resize cols rows t.term ht
  | scroll lines => exact inView_scroll hA _ ht
  | scrollToTop => exact inView_scroll hA _ ht
  | scrollToBottom => exact inView_scroll hA _ ht
  | clearHistory => exact hV.clearSaved t.term ht
  | resetState => exact hV.advance _ t.term ht
  | selectionStart col row kind => exact hV.selectionStart _ _ t.term ht
  | selectionExtend col row => exact hV.selectionUpdate _ t.term ht
  | selectionClear =>
      show (A.grid (A.selectionClear t.term)).InView
      rwa [hA.selectionClear_grid]
  | toggleViMode => exact hV.toggleViMode t.term ht
  | viMotion kind =>
      show (A.grid (t.viMotion A kind).term).InView
      unfold viMotion
      split
      · exact hV.viMotion _ t.term ht
      · exact ht
  | searchNext pattern forward => exact inView_searchNext hA pattern forward ht

end TermHost

/-- In every run of a host under output, calls and snapshots, snapshot,
selection and cursor go by the points of the viewport. -/
theorem viewed_reachable {A : Alacritty T R} (hA : Lawful A) (hV : LawfulView A) {s : Linked T}
    (h : (Linked.machine A).Reachable (fun _ _ => True) s) : s.host.Viewed A := by
  have hinv : s.host.Sized A ∧ (A.grid s.host.term).InView := by
    refine Lts.Machine.init_invariant
      (fun s : Linked T => s.host.Sized A ∧ (A.grid s.host.term).InView) ?_ ?_ h
    · rintro s ⟨cols, rows, scrollback, rfl⟩
      exact ⟨hA.new_dims _ _, hV.new cols rows scrollback⟩
    · rintro a s s' - hstep ⟨hsized, hview⟩
      cases hstep
      cases a with
      | output bytes =>
          exact ⟨(hA.advance_dims bytes _).trans hsized, hV.advance bytes _ hview⟩
      | call op => exact ⟨Session.sized_call hA op hsized, TermHost.inView_call hA hV op hview⟩
      | snapshot => exact ⟨hsized, hview⟩
  exact TermHost.viewed hinv.1 hinv.2

namespace Plain

variable {p : Plain}

theorem print_inView (c : Char) (hp : p.grid.InView) : (p.print c).grid.InView := by
  have hoffset := hp.1
  have hcolumn := hp.2
  simp only [grid, historySize] at hoffset hcolumn
  simp only [Grid.InView, grid, historySize, print, List.length_modify]
  omega

theorem lineFeed_inView (hp : p.grid.InView) : p.lineFeed.grid.InView := by
  unfold lineFeed
  split
  · exact hp
  · refine ⟨?_, hp.2⟩
    simp only [grid, historySize]
    split <;> omega

/-- A mode or a cursor style moves nothing. -/
theorem csi_inView (bytes : List UInt8) (final : UInt8) (hp : p.grid.InView) :
    (p.csi bytes final).grid.InView := by
  unfold csi
  simp only
  repeat' split
  all_goals exact hp

theorem feed_inView (b : UInt8) (hp : p.grid.InView) : (p.feed b).grid.InView := by
  have hcolumns : 0 < p.columns := Nat.zero_lt_of_lt hp.2
  unfold feed
  split
  · split
    · exact ⟨Nat.zero_le _, hcolumns⟩
    · split
      · exact hp
      · split
        · exact csi_inView (p := { p with escape := none }) _ b hp
        · exact hp
  · split
    · exact hp
    · split
      · exact lineFeed_inView hp
      · split
        · exact ⟨hp.1, hcolumns⟩
        · exact print_inView _ hp

end Plain

theorem plain_lawfulView : LawfulView plain where
  new cols rows scrollback := ⟨Nat.zero_le _, by simp [plain, Plain.grid, Plain.new, Size.new]⟩
  resize cols rows p hp := by
    show (p.resize _).grid.InView
    unfold Plain.resize
    split
    · exact hp
    · exact ⟨Nat.zero_le _, by simp [Plain.grid, Plain.new, Size.new]⟩
  advance bytes p hp := by
    show (bytes.foldl Plain.feed p).grid.InView
    induction bytes generalizing p with
    | nil => exact hp
    | cons b bytes ih => exact ih (p.feed b) (Plain.feed_inView b hp)
  clearSaved p hp := ⟨Nat.zero_le _, hp.2⟩
  toggleViMode _ hp := hp
  viMotion _ _ hp := hp
  selectionStart _ _ _ hp := hp
  selectionUpdate _ _ hp := hp

/-- A screen of 4 columns and 2 rows after three lines, scrolled back by one. -/
theorem plain_viewed_reachable : ∃ s,
    (Linked.machine plain).run ⟨TermHost.new plain 4 2 10, []⟩
      [.output [0x61, 0x0a, 0x0d, 0x62, 0x0a, 0x0d, 0x63], .call (.scroll 1), .snapshot] = some s ∧
    s.host.Viewed plain ∧ s.host.displayOffset plain = 1 := by
  have hinit : (Linked.machine plain).Init ⟨TermHost.new plain 4 2 10, []⟩ := ⟨4, 2, 10, rfl⟩
  have hmeets : (Linked.machine plain).Meets (fun _ _ => True) ⟨TermHost.new plain 4 2 10, []⟩
      [.output [0x61, 0x0a, 0x0d, 0x62, 0x0a, 0x0d, 0x63], .call (.scroll 1), .snapshot] := by
    decide +kernel
  have htest : ((Linked.machine plain).run ⟨TermHost.new plain 4 2 10, []⟩
      [.output [0x61, 0x0a, 0x0d, 0x62, 0x0a, 0x0d, 0x63], .call (.scroll 1), .snapshot]).any
      (fun s => decide (s.host.displayOffset plain = 1)) = true := by
    decide +kernel
  rcases Lts.Machine.exists_reachable _ _ hinit hmeets htest with ⟨s, hrun, hreach, hoffset⟩
  exact ⟨s, hrun, viewed_reachable plain_lawful plain_lawfulView hreach,
    of_decide_eq_true hoffset⟩

/-! ## The place of a match -/

namespace TermHost

/-- A line of the grid shows in the viewport. -/
def LineInView (A : Alacritty T R) (line : Int) (t : TermHost T) : Prop :=
  0 ≤ line + t.displayOffset A ∧ line + t.displayOffset A < t.size.lines

/-- The column, row and length that a call returns with the host it leaves show
the first line of a match; a match in view is shown where it is. -/
structure Shows (A : Alacritty T R) (m : Match) (t t' : TermHost T) (col row len : UInt16) :
    Prop where
  len_pos : 1 ≤ len.toNat
  col_eq : col.toNat = m.start.column
  row_lt : row.toNat < t.size.lines
  len_le : col.toNat + len.toNat ≤ t.size.cols
  offset_le : t'.displayOffset A ≤ t.historySize A
  line_eq : (row.toNat : Int) - t'.displayOffset A = m.start.line
  cell_eq : (t'.cells A)[t'.cellIndex col.toNat row.toNat]? =
    some (hostCell ((A.grid t.term).cell m.start.line m.start.column))
  still : t.LineInView A m.start.line → t'.displayOffset A = t.displayOffset A

variable {A : Alacritty T R} {t : TermHost T} {pattern : String} {forward : Bool} {m : Match}

theorem showLine_inView {line : Int} (hin : t.LineInView A line) : t.showLine A line = t := by
  rcases hin with ⟨hlow, hhigh⟩
  simp only [showLine]
  rw [if_neg (by omega), if_neg (by omega)]

/-- The scroll of a search moves the view over the same grid. -/
theorem showLine_grid (hA : Lawful A) (line : Int) (t : TermHost T) :
    A.grid (t.showLine A line).term =
      { A.grid t.term with displayOffset := (t.showLine A line).displayOffset A } := by
  rw [displayOffset]
  rcases showLine_cases A line t with hsame | ⟨sc, hscroll⟩
  · rw [hsame]
  · rw [hscroll, hA.scroll_grid]

theorem found_grid (hA : Lawful A) (pattern : String) (m : Match) (t : TermHost T) :
    A.grid (t.found A pattern m).term =
      { A.grid t.term with displayOffset := (t.found A pattern m).displayOffset A } := by
  have hterm : ({ t.setPattern pattern with searchOrigin := some m.start } : TermHost T).term =
      t.term := setPattern_term pattern t
  rw [← hterm]
  exact showLine_grid hA m.start.line _

/-- A match in view moves nothing. -/
theorem found_still (hin : t.LineInView A m.start.line) :
    (t.found A pattern m).displayOffset A = t.displayOffset A := by
  have hin' : LineInView A m.start.line
      { t.setPattern pattern with searchOrigin := some m.start } := by
    simp only [LineInView, displayOffset, setPattern_term, setPattern_size]
    exact hin
  rw [found, showLine_inView hin']
  simp only [displayOffset, setPattern_term]

/-- A match of the grid is within the columns. -/
theorem matchLen_le (hdims : t.Sized A) (hstart : (A.grid t.term).Has m.start)
    (hstop : (A.grid t.term).Has m.stop) : m.start.column + t.matchLen m ≤ t.size.cols := by
  simp only [Sized, Alacritty.dims, Prod.mk.injEq] at hdims
  simp only [Grid.Has, hdims.1] at hstart hstop
  unfold matchLen
  split <;> omega

theorem found_shows (hA : Lawful A) (hsized : t.Sized A)
    (hoffset : t.displayOffset A ≤ t.historySize A) (hstart : (A.grid t.term).Has m.start)
    (hstop : (A.grid t.term).Has m.stop) (hle : m.start ≤ m.stop) :
    Shows A m t (t.found A pattern m) ((t.found A pattern m).place A m).1
      ((t.found A pattern m).place A m).2.1 ((t.found A pattern m).place A m).2.2 := by
  rcases place_found pattern hA hsized hoffset hstart hle with
    ⟨row, hline, hrow, hpos, hplace⟩
  rcases t.size_bounds with ⟨⟨-, hcols⟩, -, hlines⟩
  have hlen := matchLen_le hsized hstart hstop
  have hcolumn : m.start.column < t.size.cols := by omega
  have hcol' : (UInt16.ofNat m.start.column).toNat = m.start.column :=
    UInt16.toNat_ofNat_of_lt' (Nat.lt_trans hcolumn hcols)
  have hrow' : (UInt16.ofNat row).toNat = row :=
    UInt16.toNat_ofNat_of_lt' (Nat.lt_trans hrow hlines)
  have hlen' : (UInt16.ofNat (t.matchLen m)).toNat = t.matchLen m := by
    have hlt : t.matchLen m < 65536 := by omega
    exact UInt16.toNat_ofNat_of_lt' hlt
  rw [hplace]
  refine ⟨?_, hcol', ?_, ?_, (found_view pattern hA hsized hoffset hstart).1, ?_, ?_, found_still⟩
  · rw [hlen']
    exact hpos
  · rw [hrow']
    exact hrow
  · rw [hcol', hlen']
    exact hlen
  · rw [hrow']
    omega
  · rw [hcol', hrow']
    have hsize := found_size A pattern m t
    have hcell : ((t.found A pattern m).cells A)[row * (t.found A pattern m).size.cols +
        m.start.column]? = some _ :=
      getElem?_cells A (by rw [hsize]; exact hrow) (by rw [hsize]; exact hcolumn)
    have hview : (row : Int) - (t.found A pattern m).displayOffset A = m.start.line := by omega
    rw [viewCell, hview, found_grid hA] at hcell
    exact hcell

/-- What `search_next` returns: the place of the match under its search, in a
viewport that shows it; without a match nothing, and the view stays. -/
theorem searchNext_shows (hA : Lawful A) (hsized : t.Sized A)
    (hoffset : t.displayOffset A ≤ t.historySize A) (pattern : String) (forward : Bool) :
    match t.target A pattern forward with
    | none => (t.searchNext A pattern forward).2 = (0, 0, 0) ∧
        (t.searchNext A pattern forward).1.displayOffset A = t.displayOffset A
    | some m => (A.grid t.term).Has m.start → (A.grid t.term).Has m.stop → m.start ≤ m.stop →
        Shows A m t (t.searchNext A pattern forward).1 (t.searchNext A pattern forward).2.1
          (t.searchNext A pattern forward).2.2.1 (t.searchNext A pattern forward).2.2.2 := by
  unfold target
  split
  · rename_i hnone
    by_cases hpattern : pattern = ""
    · simp [searchNext, hpattern]
    · rw [if_neg hpattern, Option.bind_eq_none_iff] at hnone
      cases hregex : A.regex pattern with
      | none => simp [searchNext, hpattern, hregex]
      | some regex =>
          rw [searchNext_none hpattern hregex (hnone regex hregex)]
          exact ⟨rfl, by simp only [displayOffset, setPattern_term]⟩
  · rename_i m hsome
    by_cases hpattern : pattern = ""
    · simp [hpattern] at hsome
    · rw [if_neg hpattern, Option.bind_eq_some_iff] at hsome
      rcases hsome with ⟨regex, hregex, hfind⟩
      rw [searchNext_some hpattern hregex hfind]
      exact found_shows hA hsized hoffset

/-- Three lines on a screen of two: the first one is history. -/
def threeLines : TermHost Plain :=
  (new plain 4 2 10).advance plain [0x61, 0x62, 0x0a, 0x0d, 0x63, 0x0a, 0x0d, 0x64]

/-- A match in the history is scrolled into the first row. -/
theorem plain_searchNext_shows :
    Shows plain ⟨⟨-1, 0⟩, ⟨-1, 1⟩⟩ threeLines (threeLines.searchNext plain "ab" false).1 0 0 2 := by
  have htarget : threeLines.target plain "ab" false = some ⟨⟨-1, 0⟩, ⟨-1, 1⟩⟩ := by decide +kernel
  have hplace : (threeLines.searchNext plain "ab" false).2 = (0, 0, 2) := by decide +kernel
  have hshows := searchNext_shows plain_lawful (t := threeLines)
    (show plain.dims threeLines.term = _ by decide +kernel) (by decide +kernel) "ab" false
  rw [htarget, hplace] at hshows
  exact hshows (by decide +kernel) (by decide +kernel) (by decide +kernel)

end TermHost

end RataShell.Term
