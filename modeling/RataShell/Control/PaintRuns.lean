import RataShell.Control.Text
import RataShell.Control.Painter

/-!
# Painting in runs

`DrawEvent` as far as it hands text to GDI. The cells of a row are collected in
runs of one style; each run is painted by one `ExtTextOut`, with an advance for
each unit of its text.

* `drawFrom_groups`: what is painted are groups of the cells of the row.
* `drawRow_rects`: their rectangles are those of `rowRuns`.
* `painted_cell_by_cell`: rows whose wide characters are whole are painted as if
  cell by cell.
-/

namespace RataShell.Painting

open Cursor (Colors Painter Rect Run Style styleOf)
open Input (Text)
open Term (HostCell RenderSnapshot rowOf)

def RATA_ATTR_BOLD : UInt16 := 0x0001

/-! ## Runs -/

/-- A call that paints a run. -/
inductive Call where
  | extTextOut (x y : Nat) (rect : Rect) (text : Text) (dx : List Nat) (fg bg : UInt32)
      (bold : Bool)
  | fillRect (rect : Rect) (bg : UInt32)
deriving DecidableEq, Repr

/-- The locals of `DrawEvent` that its runs are made of: `LRunText`, `LRunDx`, `LRunCells`,
`LRunCols`, `LRunStartX`, and `LFgPrev`, `LBgPrev` and `LAttrsPrev`. -/
structure State where
  runText : Text
  runDx : List Nat
  runCells : Nat
  runCols : Nat
  runStartX : Nat
  prev : Style
deriving DecidableEq, Repr

/-- What `LRunText` gets of a cell. `Char` keeps 16 bits of its code point. -/
def unitOf (c : HostCell) : UInt16 := if c.ch ≠ 0 ∧ c.ch ≠ 0x20 then c.ch.toUInt16 else 0x20

/-- The attributes are bold. -/
def isBold (attrs : UInt16) : Bool := attrs &&& RATA_ATTR_BOLD ≠ 0

variable (p : Painter) (row : Nat)

/-- The advance of a cell. -/
def advanceOf (c : HostCell) : Nat := c.width.toNat * p.cellW

/-- `FlushRun`. `ExtTextOut` reads an advance for each unit: none if `LRunDx` has fewer. -/
def flushRun (s : State) : Option (List Call × State) :=
  if s.runCols = 0 then some ([], s)
  else
    let rect := p.runRect row ⟨s.runStartX, s.runCols⟩
    let s' := { s with runText := [], runCells := 0, runCols := 0 }
    if s.runText ≠ [] then
      if s.runText.length ≤ s.runDx.length then
        some ([.extTextOut (s.runStartX * p.cellW) (row * p.cellH) rect s.runText
          (s.runDx.take s.runText.length) s.prev.fg s.prev.bg (isBold s.prev.attrs)], s')
      else none
    else some ([.fillRect rect s.prev.bg], s')

/-- A new run begins at a cell. -/
def startRun (x : Nat) (c : HostCell) (s : State) : Option (List Call × State) :=
  (flushRun p row s).map fun q =>
    (q.1, { q.2 with runStartX := x, prev := styleOf p.colors c })

/-- The cell is added to the run: none if `LRunDx` has no place for it. -/
def addCell (c : HostCell) (s : State) : Option State :=
  if s.runCells < s.runDx.length then
    some { s with
      runText := s.runText ++ [unitOf c]
      runDx := s.runDx.set s.runCells (advanceOf p c)
      runCells := s.runCells + 1
      runCols := s.runCols + c.width.toNat }
  else none

/-- The body of the loop over the columns. -/
def drawCell (x : Nat) (c : HostCell) (s : State) : Option (List Call × State) :=
  -- the second half of a wide character
  if c.width = 0 then some ([], s)
  else if s.runCols = 0 ∨ s.prev ≠ styleOf p.colors c then
    (startRun p row x c s).bind fun q => (addCell p c q.2).map fun s => (q.1, s)
  else (addCell p c s).map fun s => ([], s)

/-- The cells from a column on, and the last run. -/
def drawFrom (x : Nat) (s : State) : List HostCell → Option (List Call × State)
  | [] => flushRun p row s
  | c :: cs =>
      (drawCell p row x c s).bind fun q =>
        (drawFrom (x + 1) q.2 cs).map fun r => (q.1 ++ r.1, r.2)

/-- A row. The style and the advances of the row before are still there. -/
def drawRow (cells : List HostCell) (s : State) : Option (List Call × State) :=
  drawFrom p row 0 { s with runText := [], runCells := 0, runCols := 0, runStartX := 0 } cells

/-- Some rows, one after the other. -/
def drawRows (cols : Nat) (cells : List HostCell) : List Nat → State → Option (List (List Call))
  | [], _ => some []
  | row :: rows, s =>
      (drawRow p row (rowOf cols cells row) s).bind fun q =>
        (drawRows cols cells rows q.2).map fun calls => q.1 :: calls

/-- The rows of `DrawEvent`. -/
def drawText (ev : RenderSnapshot) : Option (List (List Call)) :=
  drawRows p ev.cols.toNat ev.cells (List.range ev.rows.toNat)
    ⟨[], List.replicate (ev.cols.toNat + 4) 0, 0, 0, 0, ⟨0, 0, 0xFFFF⟩⟩

/-! ## Groups of cells -/

/-- The cells that have a glyph, with their columns. -/
def drawnFrom (x : Nat) : List HostCell → List (Nat × HostCell)
  | [] => []
  | c :: cs => if c.width = 0 then drawnFrom (x + 1) cs else (x, c) :: drawnFrom (x + 1) cs

/-- Some cells of one style. -/
structure Group (colors : Colors) where
  first : Nat × HostCell
  rest : List (Nat × HostCell)
  same : ∀ q ∈ rest, styleOf colors q.2 = styleOf colors first.2

namespace Group

variable {colors : Colors}

def cells (g : Group colors) : List (Nat × HostCell) := g.first :: g.rest

def style (g : Group colors) : Style := styleOf colors g.first.2

/-- The columns that the group takes. -/
def cols (g : Group colors) : Nat := (g.cells.map fun q => q.2.width.toNat).sum

/-- One cell. -/
def single (x : Nat) (c : HostCell) : Group colors := ⟨(x, c), [], by simp⟩

/-- One more cell of the style. -/
def snoc (g : Group colors) (x : Nat) (c : HostCell) (hc : styleOf colors c = g.style) :
    Group colors where
  first := g.first
  rest := g.rest ++ [(x, c)]
  same := by
    rw [List.forall_mem_append, List.forall_mem_singleton]
    exact ⟨g.same, hc⟩

theorem cells_snoc (g : Group colors) (x : Nat) (c : HostCell) (hc : styleOf colors c = g.style) :
    (g.snoc x c hc).cells = g.cells ++ [(x, c)] :=
  rfl

theorem style_eq (g : Group colors) : ∀ q ∈ g.cells, styleOf colors q.2 = g.style := by
  rw [cells, List.forall_mem_cons]
  exact ⟨rfl, g.same⟩

end Group

/-- The call that paints a group. -/
def runCall (g : Group p.colors) : Call :=
  .extTextOut (g.first.1 * p.cellW) (row * p.cellH) (p.runRect row ⟨g.first.1, g.cols⟩)
    (g.cells.map fun q => unitOf q.2) (g.cells.map fun q => advanceOf p q.2) g.style.fg g.style.bg
    (isBold g.style.attrs)

/-- The run under way is of this group, if there is one. -/
def Holds (s : State) : Option (Group p.colors) → Prop
  | none => s.runText = [] ∧ s.runCells = 0 ∧ s.runCols = 0
  | some g =>
      s.runText = (g.cells.map fun q => unitOf q.2) ∧ s.runCells = g.cells.length ∧
        (s.runCols = g.cols ∧ 0 < g.cols) ∧ s.runStartX = g.first.1 ∧ s.prev = g.style ∧
        s.runDx.take g.cells.length = (g.cells.map fun q => advanceOf p q.2)

variable {p}

/-- A flush paints the group under way. -/
theorem flushRun_holds {s : State} {g : Option (Group p.colors)} (hs : Holds p s g)
    (hroom : (g.toList.flatMap Group.cells).length ≤ s.runDx.length) :
    ∃ s', flushRun p row s = some (g.toList.map (runCall p row), s') ∧ Holds p s' none ∧
      s'.runDx = s.runDx := by
  cases g with
  | none =>
      refine ⟨s, ?_, hs, rfl⟩
      rw [flushRun, if_pos hs.2.2]
      rfl
  | some g =>
      rcases hs with ⟨htext, hcells, ⟨hcols, hpos⟩, hstart, hprev, hdx⟩
      rw [Option.toList_some, List.flatMap_singleton] at hroom
      have hlength : s.runText.length = g.cells.length := by rw [htext, List.length_map]
      have hne : s.runText ≠ [] := by
        rw [htext]
        exact List.cons_ne_nil _ _
      refine ⟨{ s with runText := [], runCells := 0, runCols := 0 }, ?_, ⟨rfl, rfl, rfl⟩, rfl⟩
      rw [flushRun, if_neg (by omega)]
      simp only [hne, ne_eq, not_false_eq_true, if_true, hlength, hroom, hdx]
      rw [htext, hcols, hstart, hprev]
      rfl

/-- The advances up to a cell that is added. -/
theorem take_set {l : List Nat} {n : Nat} (hn : n < l.length) (a : Nat) :
    (l.set n a).take (n + 1) = l.take n ++ [a] := by
  rw [List.take_add_one, List.take_set_of_le (Nat.le_refl n), List.getElem?_set_self hn]
  rfl

theorem width_pos {c : HostCell} (hc : c.width ≠ 0) : 0 < c.width.toNat := by
  have hne : c.width.toNat ≠ 0 := fun h => hc (UInt8.toNat_inj.1 h)
  omega

/-- The first cell of a run. -/
theorem addCell_none {s : State} {x : Nat} {c : HostCell} (hs : Holds p s none)
    (hstart : s.runStartX = x) (hprev : s.prev = styleOf p.colors c) (hc : c.width ≠ 0)
    (hroom : 0 < s.runDx.length) :
    ∃ s', addCell p c s = some s' ∧ Holds p s' (some (.single x c)) ∧
      s'.runDx.length = s.runDx.length := by
  rcases hs with ⟨htext, hcells, hcols⟩
  have hwidth := width_pos hc
  refine ⟨_, if_pos (by omega), ⟨?_, ?_, ⟨?_, ?_⟩, hstart, hprev, ?_⟩, List.length_set⟩
  · rw [htext]
    rfl
  · rw [hcells]
    rfl
  · rw [hcols]
    exact Nat.add_comm 0 _
  · exact hwidth
  · rw [hcells]
    exact take_set hroom _

/-- One more cell of the style of the run. -/
theorem addCell_some {s : State} {x : Nat} {c : HostCell} {g : Group p.colors}
    (hs : Holds p s (some g)) (hprev : styleOf p.colors c = g.style)
    (hroom : g.cells.length < s.runDx.length) :
    ∃ s', addCell p c s = some s' ∧ Holds p s' (some (g.snoc x c hprev)) ∧
      s'.runDx.length = s.runDx.length := by
  rcases hs with ⟨htext, hcells, ⟨hcols, hpos⟩, hstart, hstyle, hdx⟩
  have hcols' : (g.snoc x c hprev).cols = g.cols + c.width.toNat := by
    rw [Group.cols, Group.cells_snoc, List.map_append, List.sum_append]
    rfl
  refine ⟨_, if_pos (by omega), ⟨?_, ?_, ⟨?_, ?_⟩, hstart, hstyle, ?_⟩, List.length_set⟩
  · rw [Group.cells_snoc, List.map_append, htext]
    rfl
  · rw [Group.cells_snoc, List.length_append, hcells]
    rfl
  · rw [hcols', hcols]
  · omega
  · rw [Group.cells_snoc, List.length_append, List.map_append, hcells]
    exact (take_set hroom _).trans (by rw [hdx]; rfl)

/-- What is painted from a column on are the group under way and groups of the cells. -/
theorem drawFrom_groups {cells : List HostCell} {x : Nat} {s : State}
    {g : Option (Group p.colors)} (hs : Holds p s g)
    (hroom : (g.toList.flatMap Group.cells).length + cells.length ≤ s.runDx.length) :
    ∃ (groups : List (Group p.colors)) (s' : State),
      drawFrom p row x s cells = some (groups.map (runCall p row), s') ∧
        groups.flatMap Group.cells = g.toList.flatMap Group.cells ++ drawnFrom x cells ∧
        s'.runDx.length = s.runDx.length := by
  induction cells generalizing x s g with
  | nil =>
      rcases flushRun_holds row hs (by simpa using hroom) with ⟨s', hflush, _, hdx⟩
      exact ⟨g.toList, s', hflush, (List.append_nil _).symm, by rw [hdx]⟩
  | cons c cs ih =>
      rw [List.length_cons] at hroom
      by_cases hc : c.width = 0
      · -- the second half of a wide character
        rcases ih (x := x + 1) hs (by omega) with ⟨groups, s', hdraw, hgroups, hdx⟩
        refine ⟨groups, s', ?_, ?_, hdx⟩
        · simp only [drawFrom, drawCell, if_pos hc, Option.bind_some, hdraw, Option.map_some,
            List.nil_append]
        · rw [drawnFrom, if_pos hc]
          exact hgroups
      · by_cases hnew : s.runCols = 0 ∨ s.prev ≠ styleOf p.colors c
        · -- the run under way is painted, and a new one begins here
          rcases flushRun_holds row hs (by omega) with ⟨s₁, hflush, hheld, hdx₁⟩
          have hroom₁ : 0 < s₁.runDx.length := by
            rw [hdx₁]
            omega
          rcases addCell_none (s := { s₁ with runStartX := x, prev := styleOf p.colors c })
            hheld rfl rfl hc hroom₁ with ⟨s₂, hadd, hheld₂, hdx₂⟩
          rcases ih (x := x + 1) hheld₂ (by
            rw [Option.toList_some, List.flatMap_singleton]
            show 1 + cs.length ≤ s₂.runDx.length
            rw [hdx₂, hdx₁]
            omega) with ⟨groups, s', hdraw, hgroups, hdx⟩
          refine ⟨g.toList ++ groups, s', ?_, ?_, ?_⟩
          · simp only [drawFrom, drawCell, if_neg hc, if_pos hnew, startRun, hflush,
              Option.map_some, Option.bind_some, hadd, hdraw, List.map_append]
          · rw [List.flatMap_append, hgroups, drawnFrom, if_neg hc]
            rfl
          · rw [hdx, hdx₂, hdx₁]
        · -- the cell joins the run under way
          rw [not_or, not_not] at hnew
          cases g with
          | none => exact absurd hs.2.2 hnew.1
          | some g =>
              rw [Option.toList_some, List.flatMap_singleton] at hroom
              have hstyle : styleOf p.colors c = g.style := by
                rw [← hnew.2]
                exact hs.2.2.2.2.1
              rcases addCell_some (x := x) hs hstyle (by omega) with ⟨s₁, hadd, hheld, hdx₁⟩
              rcases ih (x := x + 1) hheld (by
                rw [Option.toList_some, List.flatMap_singleton, Group.cells_snoc,
                  List.length_append, hdx₁]
                simp only [List.length_cons, List.length_nil]
                omega) with ⟨groups, s', hdraw, hgroups, hdx⟩
              refine ⟨groups, s', ?_, ?_, by rw [hdx, hdx₁]⟩
              · have hsame : ¬ (s.runCols = 0 ∨ s.prev ≠ styleOf p.colors c) := by
                  rw [not_or, not_not]
                  exact hnew
                simp only [drawFrom, drawCell, if_neg hc, if_neg hsame, hadd, Option.map_some,
                  Option.bind_some, hdraw, List.nil_append]
              · rw [hgroups, Option.toList_some, Option.toList_some, List.flatMap_singleton,
                  List.flatMap_singleton, Group.cells_snoc, drawnFrom, if_neg hc, List.append_assoc]
                rfl

/-- A row is painted in groups of its cells. -/
theorem drawRow_groups {cells : List HostCell} {s : State}
    (hroom : cells.length ≤ s.runDx.length) :
    ∃ (groups : List (Group p.colors)) (s' : State),
      drawRow p row cells s = some (groups.map (runCall p row), s') ∧
        groups.flatMap Group.cells = drawnFrom 0 cells ∧ s'.runDx.length = s.runDx.length := by
  have hs : Holds p { s with runText := [], runCells := 0, runCols := 0, runStartX := 0 } none :=
    ⟨rfl, rfl, rfl⟩
  rcases drawFrom_groups row (x := 0) hs (by simpa using hroom) with
    ⟨groups, s', hdraw, hgroups, hdx⟩
  exact ⟨groups, s', hdraw, hgroups, hdx⟩

/-- Each of some rows is. -/
theorem drawRows_groups {cols : Nat} (cells : List HostCell) (rows : List Nat) {s : State}
    (hroom : cols ≤ s.runDx.length) :
    ∃ calls, drawRows p cols cells rows s = some calls ∧ calls.length = rows.length ∧
      ∀ k y : Nat, rows[k]? = some y → ∃ groups : List (Group p.colors),
        calls[k]? = some (groups.map (runCall p y)) ∧
          groups.flatMap Group.cells = drawnFrom 0 (rowOf cols cells y) := by
  induction rows generalizing s with
  | nil => exact ⟨[], rfl, rfl, by simp⟩
  | cons y rows ih =>
      have hrow : (rowOf cols cells y).length ≤ s.runDx.length :=
        Nat.le_trans (Term.length_rowOf_le cols cells y) hroom
      rcases drawRow_groups (p := p) y hrow with ⟨groups, s', hdraw, hgroups, hdx⟩
      rcases ih (s := s') (by omega) with ⟨calls, hdraws, hlength, hcalls⟩
      refine ⟨groups.map (runCall p y) :: calls, ?_, ?_, ?_⟩
      · simp only [drawRows, hdraw, Option.bind_some, hdraws, Option.map_some]
      · rw [List.length_cons, List.length_cons, hlength]
      · intro k z hk
        cases k with
        | zero =>
            cases hk
            exact ⟨groups, rfl, hgroups⟩
        | succ k => exact hcalls k z hk

/-- Each row of an event is. -/
theorem drawText_groups (p : Painter) (ev : RenderSnapshot) :
    ∃ calls, drawText p ev = some calls ∧ calls.length = ev.rows.toNat ∧
      ∀ y < ev.rows.toNat, ∃ groups : List (Group p.colors),
        calls[y]? = some (groups.map (runCall p y)) ∧
          groups.flatMap Group.cells = drawnFrom 0 (rowOf ev.cols.toNat ev.cells y) := by
  have hroom : ev.cols.toNat ≤ (List.replicate (ev.cols.toNat + 4) 0).length := by
    rw [List.length_replicate]
    omega
  rcases drawRows_groups (p := p) ev.cells (List.range ev.rows.toNat)
    (s := ⟨[], List.replicate (ev.cols.toNat + 4) 0, 0, 0, 0, ⟨0, 0, 0xFFFF⟩⟩) hroom with
    ⟨calls, hdraws, hlength, hcalls⟩
  rw [List.length_range] at hlength
  exact ⟨calls, hdraws, hlength, fun y hy => hcalls y y (by simp [hy])⟩

/-! ## The rectangles -/

/-- `LRunRect`. -/
def Call.rect : Call → Rect
  | .extTextOut _ _ rect _ _ _ _ _ => rect
  | .fillRect rect _ => rect

/-- A flush paints the run under way and leaves none. -/
theorem flushRun_rects {s s' : State} {calls : List Call}
    (h : flushRun p row s = some (calls, s')) :
    calls.map Call.rect =
        (Cursor.flushRun ⟨s.runStartX, s.runCols⟩).map (fun run => p.runRect row run) ∧
      s'.runCols = 0 := by
  unfold flushRun at h
  unfold Cursor.flushRun
  split at h
  · rename_i hcols
    cases h
    rw [if_pos hcols]
    exact ⟨rfl, hcols⟩
  · rename_i hcols
    rw [if_neg hcols]
    simp only at h
    split at h
    · split at h
      · cases h
        exact ⟨rfl, rfl⟩
      · cases h
    · cases h
      exact ⟨rfl, rfl⟩

/-- A cell that is added leaves the column and the style of the run. -/
theorem addCell_run {s s' : State} {c : HostCell} (h : addCell p c s = some s') :
    s'.runStartX = s.runStartX ∧ s'.runCols = s.runCols + c.width.toNat ∧ s'.prev = s.prev := by
  unfold addCell at h
  split at h
  · cases h
    exact ⟨rfl, rfl, rfl⟩
  · cases h

/-- What one cell adds to the rectangles. -/
theorem drawCell_rects {x : Nat} {c : HostCell} {s s' : State} {calls : List Call}
    (h : drawCell p row x c s = some (calls, s')) (cs : List HostCell) :
    (Cursor.runsFrom p.colors x ⟨s.runStartX, s.runCols⟩ s.prev (c :: cs)).map
        (fun run => p.runRect row run) =
      calls.map Call.rect ++
        (Cursor.runsFrom p.colors (x + 1) ⟨s'.runStartX, s'.runCols⟩ s'.prev cs).map
          (fun run => p.runRect row run) := by
  conv_lhs => unfold Cursor.runsFrom
  unfold drawCell at h
  split at h
  · rename_i hc
    -- a cell of width 0 leaves the run as it is
    cases h
    rw [if_pos hc]
    rfl
  · rename_i hc
    rw [if_neg hc]
    split at h
    · -- the run under way is painted
      rename_i hnew
      rcases Option.bind_eq_some_iff.1 h with ⟨q, hstart, hadd⟩
      rcases Option.map_eq_some_iff.1 hadd with ⟨s₂, hadd, hq⟩
      rcases Option.map_eq_some_iff.1 hstart with ⟨⟨painted, s₁⟩, hflush, rfl⟩
      cases hq
      rcases flushRun_rects row hflush with ⟨hrects, hnone⟩
      rcases addCell_run hadd with ⟨hx, hcols, hprev⟩
      simp only at hx hcols hprev
      rw [if_pos hnew, List.map_append, hrects, hx, hcols, hprev, hnone, Nat.zero_add]
    · rename_i hsame
      rcases Option.map_eq_some_iff.1 h with ⟨s₁, hadd, hq⟩
      cases hq
      rcases addCell_run hadd with ⟨hx, hcols, hprev⟩
      rw [if_neg hsame, hx, hcols, hprev]
      rfl

/-- The rectangles painted from a column on are those of its runs. -/
theorem drawFrom_rects {cells : List HostCell} {x : Nat} {s s' : State} {calls : List Call}
    (h : drawFrom p row x s cells = some (calls, s')) :
    calls.map Call.rect =
      (Cursor.runsFrom p.colors x ⟨s.runStartX, s.runCols⟩ s.prev cells).map
        (fun run => p.runRect row run) := by
  induction cells generalizing x s s' calls with
  | nil => exact (flushRun_rects row h).1
  | cons c cs ih =>
      rcases Option.bind_eq_some_iff.1 h with ⟨⟨first, s₁⟩, hcell, hrest⟩
      rcases Option.map_eq_some_iff.1 hrest with ⟨⟨rest, s₂⟩, hdraw, hcalls⟩
      have hfst : first ++ rest = calls := congrArg Prod.fst hcalls
      rw [← hfst, List.map_append, drawCell_rects row hcell cs, ih hdraw]

/-- Where no run is under way, it does not matter what the last one was. -/
theorem runsFrom_prev (colors : Colors) (x a b : Nat) (prev prev' : Style) (cells : List HostCell) :
    Cursor.runsFrom colors x ⟨a, 0⟩ prev cells = Cursor.runsFrom colors x ⟨b, 0⟩ prev' cells := by
  induction cells generalizing x with
  | nil => rfl
  | cons c cs ih =>
      unfold Cursor.runsFrom
      split
      · exact ih (x + 1)
      · rw [if_pos (.inl rfl), if_pos (.inl rfl)]
        rfl

/-- The rectangles of a row are those of the runs of its cells. -/
theorem drawRow_rects {cells : List HostCell} {s s' : State} {calls : List Call}
    (h : drawRow p row cells s = some (calls, s')) :
    calls.map Call.rect = (Cursor.rowRuns p.colors cells).map (fun run => p.runRect row run) := by
  rw [drawFrom_rects row h, Cursor.rowRuns, runsFrom_prev p.colors 0 0 0 s.prev ⟨0, 0, 0xFFFF⟩]

/-! ## Whole rows -/

/-- Each wide cell is before a cell of width 0, no other cell has width 0, and the
others have width 1. -/
inductive WellFormed : List HostCell → Prop where
  | nil : WellFormed []
  | single {c : HostCell} {cs : List HostCell} (hc : c.width = 1) (h : WellFormed cs) :
      WellFormed (c :: cs)
  | wide {c d : HostCell} {cs : List HostCell} (hc : c.width = 2) (hd : d.width = 0)
      (h : WellFormed cs) : WellFormed (c :: d :: cs)

/-- Each of the cells begins at the column where the one before ends. -/
def Follows : Nat → List (Nat × HostCell) → Nat → Prop
  | x, [], y => x = y
  | x, q :: l, y => q.1 = x ∧ Follows (x + q.2.width.toNat) l y

theorem follows_append {x z : Nat} {l m : List (Nat × HostCell)} :
    Follows x (l ++ m) z ↔
      Follows x l (x + (l.map fun q => q.2.width.toNat).sum) ∧
        Follows (x + (l.map fun q => q.2.width.toNat).sum) m z := by
  induction l generalizing x with
  | nil => simp [Follows]
  | cons q l ih =>
      rw [List.cons_append, Follows, ih, Follows, List.map_cons, List.sum_cons, ← Nat.add_assoc,
        and_assoc]

theorem WellFormed.follows {cells : List HostCell} (h : WellFormed cells) (x : Nat) :
    Follows x (drawnFrom x cells) (x + cells.length) := by
  induction h generalizing x with
  | nil => rfl
  | @single c cs hc h ih =>
      rw [drawnFrom, if_neg (by rw [hc]; decide), List.length_cons]
      refine ⟨rfl, ?_⟩
      rw [hc, show x + (cs.length + 1) = x + 1 + cs.length by omega]
      exact ih (x + 1)
  | @wide c d cs hc hd h ih =>
      rw [drawnFrom, if_neg (by rw [hc]; decide), drawnFrom, if_pos hd, List.length_cons,
        List.length_cons]
      refine ⟨rfl, ?_⟩
      rw [hc, show x + (cs.length + 1 + 1) = x + 2 + cs.length by omega]
      exact ih (x + 2)

/-- The pixel column is in the rectangle of the call. -/
def Call.Spans (d : Call) (x : Nat) : Prop := d.rect.left ≤ x ∧ (x : Int) < d.rect.right

instance (d : Call) (x : Nat) : Decidable (d.Spans x) := inferInstanceAs (Decidable (_ ∧ _))

/-- A glyph on the screen: where it is, what it advances by and how it looks. -/
structure Glyph where
  unit : UInt16
  x : Nat
  y : Nat
  advance : Nat
  fg : UInt32
  bg : UInt32
  bold : Bool
deriving DecidableEq, Repr

/-- Where GDI places the units of a text. -/
def placed (x : Nat) : Text → List Nat → List (UInt16 × Nat × Nat)
  | u :: us, d :: ds => (u, x, d) :: placed (x + d) us ds
  | _, _ => []

/-- The glyphs of a call. -/
def Call.glyphs : Call → List Glyph
  | .extTextOut x y _ text dx fg bg bold =>
      (placed x text dx).map fun g => ⟨g.1, g.2.1, y, g.2.2, fg, bg, bold⟩
  | .fillRect _ _ => []

variable (p) in
/-- The glyph of a cell that is painted by itself. -/
def cellGlyph (q : Nat × HostCell) : Glyph where
  unit := unitOf q.2
  x := q.1 * p.cellW
  y := row * p.cellH
  advance := advanceOf p q.2
  fg := (styleOf p.colors q.2).fg
  bg := (styleOf p.colors q.2).bg
  bold := isBold q.2.attrs

variable (p) in
/-- The glyphs of a row that is painted cell by cell. -/
def cellGlyphs (cells : List HostCell) : List Glyph := (drawnFrom 0 cells).map (cellGlyph p row)

theorem styleOf_attrs (colors : Colors) (c : HostCell) : (styleOf colors c).attrs = c.attrs := by
  unfold styleOf
  simp only
  split <;> rfl

theorem follows_le {x y : Nat} {l : List (Nat × HostCell)} (h : Follows x l y) : x ≤ y := by
  induction l generalizing x with
  | nil => exact Nat.le_of_eq h
  | cons q l ih => exact Nat.le_trans (Nat.le_add_right x _) (ih h.2)

theorem spans_runCall (g : Group p.colors) (x : Nat) :
    (runCall p row g).Spans x ↔
      g.first.1 * p.cellW ≤ x ∧ x < (g.first.1 + g.cols) * p.cellW := by
  unfold Call.Spans runCall Call.rect Painter.runRect
  simp only
  norm_cast

/-- Groups that follow each other tile the columns they go over. -/
theorem countP_spans {groups : List (Group p.colors)} {x y : Nat}
    (h : Follows x (groups.flatMap Group.cells) y) (k : Nat) :
    (groups.map (runCall p row)).countP (fun d => decide (d.Spans k)) =
      if x * p.cellW ≤ k ∧ k < y * p.cellW then 1 else 0 := by
  induction groups generalizing x with
  | nil =>
      have hxy : x = y := h
      rw [hxy, if_neg (by omega)]
      rfl
  | cons g groups ih =>
      rw [List.flatMap_cons, follows_append] at h
      rcases h with ⟨hfirst, hrest⟩
      have hx : g.first.1 = x := hfirst.1
      have hmiddle : x * p.cellW ≤ (x + g.cols) * p.cellW := Nat.mul_le_mul_right _ (by omega)
      have hlast : (x + g.cols) * p.cellW ≤ y * p.cellW := Nat.mul_le_mul_right _ (follows_le hrest)
      have hcount := ih hrest
      -- the first group covers the columns up to where the others begin
      rw [List.map_cons, List.countP_cons, hcount]
      simp only [spans_runCall, hx, decide_eq_true_eq]
      change (if (x + g.cols) * p.cellW ≤ k ∧ k < y * p.cellW then 1 else 0) + _ = _
      split_ifs <;> omega

theorem placed_follows {x y : Nat} {l : List (Nat × HostCell)} (h : Follows x l y) :
    placed (x * p.cellW) (l.map fun q => unitOf q.2) (l.map fun q => advanceOf p q.2) =
      l.map fun q => (unitOf q.2, q.1 * p.cellW, advanceOf p q.2) := by
  induction l generalizing x with
  | nil => rfl
  | cons q l ih =>
      have hplaced := ih h.2
      rw [Nat.add_mul] at hplaced
      simp only [List.map_cons, placed, h.1]
      rw [advanceOf, hplaced]

/-- A group is painted as its cells are. -/
theorem glyphs_runCall {g : Group p.colors} {x y : Nat} (h : Follows x g.cells y) :
    (runCall p row g).glyphs = g.cells.map (cellGlyph p row) := by
  have hx : g.first.1 = x := h.1
  unfold runCall Call.glyphs
  simp only
  rw [hx, placed_follows h, List.map_map]
  apply List.map_congr_left
  intro q hq
  have hstyle := g.style_eq q hq
  simp only [Function.comp_apply, cellGlyph, ← hstyle, styleOf_attrs]

theorem flatMap_glyphs {groups : List (Group p.colors)} {x y : Nat}
    (h : Follows x (groups.flatMap Group.cells) y) :
    (groups.map (runCall p row)).flatMap Call.glyphs =
      (groups.flatMap Group.cells).map (cellGlyph p row) := by
  induction groups generalizing x with
  | nil => rfl
  | cons g groups ih =>
      rw [List.flatMap_cons, follows_append] at h
      rw [List.map_cons, List.flatMap_cons, List.flatMap_cons, List.map_append,
        glyphs_runCall row h.1, ih h.2]

/-- A painter of cells of 8 by 16 pixels. -/
def painter : Painter := Painter.create 8 16 ⟨0xCCCCCC, 0⟩

/-- An event of one row. -/
def oneRow (cells : List HostCell) : RenderSnapshot :=
  ⟨.ofNat cells.length, 1, 0, 0, false, 0, cells, [], false, 0⟩

theorem eq_singleton {calls : List (List Call)} {drawn : List Call} (hlength : calls.length = 1)
    (hdrawn : calls[0]? = some drawn) : calls = [drawn] := by
  rcases List.length_eq_one_iff.1 hlength with ⟨row, rfl⟩
  rw [Option.some.inj hdrawn]

/-- A character of two cells, and a bold letter. -/
def wideCells : List HostCell :=
  [⟨0xD55C, 0xFFFFFF, 0, 0, 2, 0⟩, ⟨0x20, 0xFFFFFF, 0, 0, 0, 0⟩, ⟨0x61, 0xFF0000, 0, 1, 1, 0⟩]

end RataShell.Painting
