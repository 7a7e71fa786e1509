import Mathlib.Data.List.Basic
import RataShell.Lib.Machine
import RataShell.Term.Plain

/-!
# The render backend

`HostBackend::snapshot` gives the host all cells and the rectangles that changed;
a consumer that copies only those may keep a part of the cells it had.

* `covers_coalesce`: the coalesced rectangles cover what the rows did.
* `copied_iff`: one copy is complete exactly when no row changes in its
  hyperlinks alone.
* `holds_iff`: the same over whole runs.
* `stale_link`: a run in which one does.
-/

namespace RataShell.Term

variable {T R : Type}

/-! ## Rectangles -/

/-- `RectU16`. No sum exceeds the number of rows or columns, which fits `u16`. -/
structure Rect where
  x : Nat
  y : Nat
  w : Nat
  h : Nat
deriving DecidableEq, Repr

/-- The cell is inside. -/
def Rect.Has (r : Rect) (x y : Nat) : Prop :=
  (r.x ≤ x ∧ x < r.x + r.w) ∧ r.y ≤ y ∧ y < r.y + r.h

instance (r : Rect) (x y : Nat) : Decidable (r.Has x y) :=
  inferInstanceAs (Decidable ((_ ∧ _) ∧ _ ∧ _))

/-- The cell is inside one of the rectangles. -/
def Covers (rects : List Rect) (x y : Nat) : Prop := ∃ r ∈ rects, r.Has x y

instance (rects : List Rect) (x y : Nat) : Decidable (Covers rects x y) :=
  inferInstanceAs (Decidable (∃ r ∈ rects, r.Has x y))

/-- A rectangle joins the last one, if it continues it downwards. -/
def join (out : List Rect) (r : Rect) : List Rect :=
  match out.getLast? with
  | some last =>
      if last.x = r.x ∧ last.w = r.w ∧ last.y + last.h = r.y then
        out.dropLast ++ [{ last with h := last.h + r.h }]
      else out ++ [r]
  | none => out ++ [r]

/-- `coalesce`. -/
def coalesce (rects : List Rect) : List Rect :=
  (rects.mergeSort fun a b => a.y ≤ b.y).foldl join []

theorem covers_append {rects rects' : List Rect} {x y : Nat} :
    Covers (rects ++ rects') x y ↔ Covers rects x y ∨ Covers rects' x y := by
  simp only [Covers, List.mem_append, or_and_right, exists_or]

theorem covers_singleton {r : Rect} {x y : Nat} : Covers [r] x y ↔ r.Has x y := by
  simp [Covers]

theorem covers_join (out : List Rect) (r : Rect) (x y : Nat) :
    Covers (join out r) x y ↔ Covers out x y ∨ r.Has x y := by
  unfold join
  split
  · rename_i last hlast
    split
    · rename_i hjoin
      have hout : Covers out x y ↔ Covers out.dropLast x y ∨ last.Has x y := by
        conv_lhs => rw [← List.dropLast_append_getLast? last hlast]
        rw [covers_append, covers_singleton]
      have hboth : ({ last with h := last.h + r.h } : Rect).Has x y ↔ last.Has x y ∨ r.Has x y := by
        simp only [Rect.Has]
        omega
      rw [covers_append, covers_singleton, hout, hboth, or_assoc]
    · rw [covers_append, covers_singleton]
  · rw [covers_append, covers_singleton]

/-- The coalesced rectangles cover what they are made from. -/
theorem covers_coalesce (rects : List Rect) (x y : Nat) :
    Covers (coalesce rects) x y ↔ Covers rects x y := by
  have hfold : ∀ (l out : List Rect),
      Covers (l.foldl join out) x y ↔ Covers out x y ∨ Covers l x y := by
    intro l
    induction l with
    | nil => simp [Covers]
    | cons r l ih =>
        intro out
        rw [List.foldl_cons, ih, covers_join, or_assoc, ← covers_singleton (r := r),
          ← covers_append]
        rfl
  rw [coalesce, hfold]
  simp [Covers]

/-! ## The backend -/

/-- `HostBackend`, less its buffer. -/
structure HostBackend where
  prev : Option (List HostCell)
  prevCols : UInt16
  prevRows : UInt16
deriving DecidableEq, Repr

/-- `RenderSnapshot`. -/
structure RenderSnapshot where
  cols : UInt16
  rows : UInt16
  cursorX : UInt16
  cursorY : UInt16
  cursorVisible : Bool
  cursorStyle : UInt8
  cells : List HostCell
  dirty : List Rect
  altActive : Bool
  modeFlags : UInt32
deriving DecidableEq, Repr

/-- `cells_eq`. -/
def cellsEq (a b : List HostCell) : Bool :=
  a.length == b.length && (a.zip b).all fun p =>
    p.1.ch == p.2.ch && p.1.fg == p.2.fg && p.1.bg == p.2.bg && p.1.attrs == p.2.attrs &&
      p.1.width == p.2.width

/-- Row `y` of a table of cells. -/
def rowOf {α : Type} (cols : Nat) (cells : List α) (y : Nat) : List α :=
  (cells.drop (y * cols)).take cols

/-- A rectangle for each row that differs. -/
def changedRows (cols rows : Nat) (prev now : List HostCell) : List Rect :=
  ((List.range rows).filter fun y => !cellsEq (rowOf cols now y) (rowOf cols prev y)).map
    fun y => ⟨0, y, cols, 1⟩

namespace HostBackend

/-- `HostBackend::new`. -/
def new : HostBackend where
  prev := none
  prevCols := 0
  prevRows := 0

/-- The dirty rectangles of `HostBackend::snapshot`. -/
def dirty (cols rows : UInt16) (now : List HostCell) (b : HostBackend) : List Rect :=
  match b.prev with
  | some prev =>
      if b.prevCols = cols ∧ b.prevRows = rows then
        coalesce (changedRows cols.toNat rows.toNat prev now)
      else [⟨0, 0, cols.toNat, rows.toNat⟩]
  | none => [⟨0, 0, cols.toNat, rows.toNat⟩]

variable (A : Alacritty T R)

/-- The snapshot that `HostBackend::snapshot` returns. -/
def render (t : TermHost T) (b : HostBackend) : RenderSnapshot :=
  let m := t.snapshotMeta A
  { cols := m.cols
    rows := m.rows
    cursorX := m.cursorX
    cursorY := m.cursorY
    cursorVisible := m.cursorVisible
    cursorStyle := m.cursorStyle
    cells := t.cells A
    dirty := b.dirty m.cols m.rows (t.cells A)
    altActive := m.altActive
    modeFlags := t.modeFlags A }

/-- The backend that `HostBackend::snapshot` leaves. -/
def remember (t : TermHost T) : HostBackend where
  prev := some (t.cells A)
  prevCols := (t.snapshotMeta A).cols
  prevRows := (t.snapshotMeta A).rows

end HostBackend

/-! ## A consumer of the dirty rectangles -/

/-- The grid of a consumer; `none` is a cell it has not been given. -/
structure Consumer where
  cols : UInt16
  rows : UInt16
  cells : List (Option HostCell)
deriving DecidableEq, Repr

namespace Consumer

def empty : Consumer where
  cols := 0
  rows := 0
  cells := []

/-- A new size empties the grid. -/
def reset (cols rows : UInt16) (c : Consumer) : Consumer :=
  if c.cols = cols ∧ c.rows = rows then c
  else ⟨cols, rows, List.replicate (rows.toNat * cols.toNat) none⟩

/-- Copies the cells inside the dirty rectangles. -/
def apply (snap : RenderSnapshot) (c : Consumer) : Consumer :=
  let c := c.reset snap.cols snap.rows
  { c with
    cells := (List.range (snap.rows.toNat * snap.cols.toNat)).map fun i =>
      if Covers snap.dirty (i % snap.cols.toNat) (i / snap.cols.toNat) then snap.cells[i]?
      else (c.cells[i]?).join }

/-- The grid is that of the snapshot, in every field of every cell. -/
def Holds (snap : RenderSnapshot) (c : Consumer) : Prop := c.cells = snap.cells.map some

end Consumer

/-! ## One copy -/

/-- What `cells_eq` does not compare is the hyperlink. -/
theorem cellsEq_and_links {a b : List HostCell} :
    cellsEq a b = true ∧ a.map HostCell.hyperlinkId = b.map HostCell.hyperlinkId ↔ a = b := by
  induction a generalizing b with
  | nil => cases b <;> simp [cellsEq]
  | cons c a ih =>
      cases b with
      | nil => simp [cellsEq]
      | cons d b =>
          have hcons : cellsEq (c :: a) (d :: b) = true ∧
              (c :: a).map HostCell.hyperlinkId = (d :: b).map HostCell.hyperlinkId ↔
                c = d ∧ cellsEq a b = true ∧
                  a.map HostCell.hyperlinkId = b.map HostCell.hyperlinkId := by
            cases c
            cases d
            simp only [cellsEq, List.length_cons, List.zip_cons_cons, List.all_cons, List.map_cons,
              Bool.and_eq_true, beq_iff_eq, List.cons.injEq, HostCell.mk.injEq]
            constructor
            · rintro ⟨⟨hlen, hfields, hall⟩, hlink, hlinks⟩
              exact ⟨⟨hfields.1.1.1.1, hfields.1.1.1.2, hfields.1.1.2, hfields.1.2, hfields.2,
                hlink⟩, ⟨by omega, hall⟩, hlinks⟩
            · rintro ⟨⟨hch, hfg, hbg, hattrs, hwidth, hlink⟩, ⟨hlen, hall⟩, hlinks⟩
              exact ⟨⟨by omega, ⟨⟨⟨⟨hch, hfg⟩, hbg⟩, hattrs⟩, hwidth⟩, hall⟩, hlink, hlinks⟩
          rw [hcons, ih, List.cons.injEq]

theorem getElem?_rowOf {α : Type} {cols : Nat} {cells : List α} {x : Nat} (hx : x < cols)
    (y : Nat) :
    (rowOf cols cells y)[x]? = cells[y * cols + x]? := by
  rw [rowOf, List.getElem?_take_of_lt hx, List.getElem?_drop]

theorem length_rowOf_le {α : Type} (cols : Nat) (cells : List α) (y : Nat) :
    (rowOf cols cells y).length ≤ cols := by
  rw [rowOf, List.length_take]
  exact Nat.min_le_left _ _

/-- The rows of a whole grid are whole. -/
theorem length_rowOf {α : Type} {cols rows y : Nat} {cells : List α}
    (hcells : rows * cols ≤ cells.length) (hy : y < rows) :
    (rowOf cols cells y).length = cols := by
  have hrow : (y + 1) * cols ≤ rows * cols := Nat.mul_le_mul_right cols hy
  rw [Nat.succ_mul] at hrow
  rw [rowOf, List.length_take, List.length_drop]
  omega

theorem index_lt {cols rows x y : Nat} (hx : x < cols) (hy : y < rows) :
    y * cols + x < rows * cols := by
  have hrow : (y + 1) * cols ≤ rows * cols := Nat.mul_le_mul_right cols hy
  rw [Nat.succ_mul] at hrow
  omega

/-- What stands in a row and a column after the covered ones have been copied. -/
theorem getElem?_copied {α : Type} {cols rows x y : Nat} (hx : x < cols) (hy : y < rows)
    (dirty : List Rect) (f g : Nat → α) :
    ((List.range (rows * cols)).map fun i =>
        if Covers dirty (i % cols) (i / cols) then f i else g i)[y * cols + x]? =
      some (if Covers dirty x y then f (y * cols + x) else g (y * cols + x)) := by
  have hcols : 0 < cols := by omega
  have hdiv : (y * cols + x) / cols = y := by
    rw [Nat.mul_comm, Nat.mul_add_div hcols, Nat.div_eq_of_lt hx, Nat.add_zero]
  have hmod : (y * cols + x) % cols = x := by
    rw [Nat.mul_comm, Nat.mul_add_mod, Nat.mod_eq_of_lt hx]
  rw [List.getElem?_map, List.getElem?_range (index_lt hx hy), Option.map_some, hdiv, hmod]

/-- Tables are equal when they are in each row and column. -/
theorem table_ext {α : Type} (cols rows : Nat) {a b : List α} (ha : a.length = rows * cols)
    (hb : b.length = rows * cols)
    (h : ∀ y < rows, ∀ x < cols, a[y * cols + x]? = b[y * cols + x]?) : a = b := by
  refine List.ext_getElem? fun i => ?_
  rcases Nat.lt_or_ge i (rows * cols) with hlt | hge
  · have hcols : 0 < cols := Nat.pos_of_mul_pos_left (Nat.zero_lt_of_lt hlt)
    have hcell := h (i / cols) ((Nat.div_lt_iff_lt_mul hcols).2 hlt) (i % cols)
      (Nat.mod_lt i hcols)
    rw [Nat.div_add_mod'] at hcell
    exact hcell
  · rw [List.getElem?_eq_none (by omega), List.getElem?_eq_none (by omega)]

theorem covers_changedRows {cols rows : Nat} {prev now : List HostCell} {x y : Nat} (hx : x < cols)
    (hy : y < rows) :
    Covers (changedRows cols rows prev now) x y ↔
      cellsEq (rowOf cols now y) (rowOf cols prev y) = false := by
  unfold Covers changedRows
  constructor
  · rintro ⟨r, hr, hhas⟩
    rcases List.mem_map.1 hr with ⟨y', hy', rfl⟩
    simp only [List.mem_filter, Bool.not_eq_true'] at hy'
    have heq : y = y' := by
      simp only [Rect.Has] at hhas
      omega
    rw [heq]
    exact hy'.2
  · intro hdiffer
    refine ⟨⟨0, y, cols, 1⟩, List.mem_map.2 ⟨y, ?_, rfl⟩, ?_⟩
    · simp [hy, hdiffer]
    · simp only [Rect.Has]
      omega

/-- Where all changed rows are copied, the copy is complete exactly when no row
changes in its hyperlinks alone. -/
theorem copied_iff {cols rows : Nat} {prev now : List HostCell} (hnow : now.length = rows * cols) :
    ((List.range (rows * cols)).map fun i =>
        if Covers (coalesce (changedRows cols rows prev now)) (i % cols) (i / cols) then now[i]?
        else prev[i]?) = now.map some ↔
      ∀ y < rows, cellsEq (rowOf cols now y) (rowOf cols prev y) = true →
        (rowOf cols now y).map HostCell.hyperlinkId =
          (rowOf cols prev y).map HostCell.hyperlinkId := by
  have hitem : ∀ y < rows, ∀ x < cols,
      ((List.range (rows * cols)).map fun i =>
        if Covers (coalesce (changedRows cols rows prev now)) (i % cols) (i / cols) then now[i]?
        else prev[i]?)[y * cols + x]? =
      some (if cellsEq (rowOf cols now y) (rowOf cols prev y) = false then now[y * cols + x]?
        else prev[y * cols + x]?) := by
    intro y hy x hx
    rw [getElem?_copied hx hy]
    simp only [covers_coalesce, covers_changedRows hx hy]
  constructor
  · intro hcopied y hy hsame
    -- the row has been left as it was
    have hrow : rowOf cols now y = rowOf cols prev y := by
      refine List.ext_getElem? fun x => ?_
      rcases Nat.lt_or_ge x cols with hx | hx
      · have hlt : y * cols + x < now.length := hnow ▸ index_lt hx hy
        have hcell := hitem y hy x hx
        rw [hcopied, List.getElem?_map, List.getElem?_eq_getElem hlt, hsame] at hcell
        rw [getElem?_rowOf hx, getElem?_rowOf hx, List.getElem?_eq_getElem hlt]
        simpa using hcell
      · rw [List.getElem?_eq_none (by simp [rowOf]; omega),
          List.getElem?_eq_none (by simp [rowOf]; omega)]
    rw [hrow]
  · intro hlinks
    refine table_ext cols rows (by simp) (by simpa using hnow) fun y hy x hx => ?_
    have hlt : y * cols + x < now.length := hnow ▸ index_lt hx hy
    rw [hitem y hy x hx, List.getElem?_map, List.getElem?_eq_getElem hlt, Option.map_some]
    split
    · rfl
    · rename_i hsame
      rw [Bool.not_eq_false] at hsame
      have hrow := cellsEq_and_links.1 ⟨hsame, hlinks _ hy hsame⟩
      have hcell := congrArg (·[x]?) hrow
      simp only [getElem?_rowOf hx, List.getElem?_eq_getElem hlt] at hcell
      rw [hcell]

/-! ## Runs -/

/-- A backend, the consumer of its snapshots and the last of these. -/
structure Mirror where
  backend : HostBackend
  consumer : Consumer
  shown : Option RenderSnapshot
deriving DecidableEq, Repr

namespace Mirror

/-- The consumer holds exactly the cells of the last snapshot. -/
def Holds (s : Mirror) : Prop := ∀ snap ∈ s.shown, s.consumer.Holds snap

instance (s : Mirror) : Decidable s.Holds :=
  match h : s.shown with
  | none => isTrue (by simp [Holds, h])
  | some snap => decidable_of_iff (s.consumer.cells = snap.cells.map some)
      (by simp [Holds, h, Consumer.Holds])

variable (A : Alacritty T R)

/-- The backend and its consumer at the snapshot of a terminal. -/
def step (t : TermHost T) (s : Mirror) : Mirror :=
  let snap := s.backend.render A t
  { backend := HostBackend.remember A t
    consumer := s.consumer.apply snap
    shown := some snap }

/-- Snapshots of any terminals, one after the other. -/
def machine : Lts.Machine Mirror (TermHost T) where
  Init s := s = ⟨HostBackend.new, Consumer.empty, none⟩
  step t s := some (s.step A t)

/-- No row of the terminal differs from the last snapshot, if that had its size, in
its hyperlinks alone. -/
def LinksShow (t : TermHost T) (s : Mirror) : Prop :=
  ∀ prev ∈ s.backend.prev,
    s.backend.prevCols = (t.snapshotMeta A).cols ∧ s.backend.prevRows = (t.snapshotMeta A).rows →
      ∀ y < t.size.lines,
        cellsEq (rowOf t.size.cols (t.cells A) y) (rowOf t.size.cols prev y) = true →
          (rowOf t.size.cols (t.cells A) y).map HostCell.hyperlinkId =
            (rowOf t.size.cols prev y).map HostCell.hyperlinkId

/-- What the backend remembers is the last snapshot, and the consumer has its size. -/
structure Valid (s : Mirror) : Prop where
  prev : s.backend.prev = s.shown.map RenderSnapshot.cells
  cols : ∀ snap ∈ s.shown, s.backend.prevCols = s.consumer.cols
  rows : ∀ snap ∈ s.shown, s.backend.prevRows = s.consumer.rows
  length : ∀ snap ∈ s.shown,
    snap.cells.length = s.backend.prevRows.toNat * s.backend.prevCols.toNat

variable {A}

theorem meta_cols (t : TermHost T) : (t.snapshotMeta A).cols.toNat = t.size.cols :=
  UInt16.toNat_ofNat_of_lt' t.size_bounds.1.2

theorem meta_rows (t : TermHost T) : (t.snapshotMeta A).rows.toNat = t.size.lines :=
  UInt16.toNat_ofNat_of_lt' t.size_bounds.2.2

theorem apply_size (snap : RenderSnapshot) (c : Consumer) :
    (c.apply snap).cols = snap.cols ∧ (c.apply snap).rows = snap.rows := by
  unfold Consumer.apply Consumer.reset
  simp only
  split
  · assumption
  · exact ⟨rfl, rfl⟩

theorem step_valid (t : TermHost T) (s : Mirror) : (s.step A t).Valid where
  prev := rfl
  cols := by
    rintro snap ⟨⟩
    exact (apply_size (s.backend.render A t) s.consumer).1.symm
  rows := by
    rintro snap ⟨⟩
    exact (apply_size (s.backend.render A t) s.consumer).2.symm
  length := by
    rintro snap ⟨⟩
    show (t.cells A).length = (t.snapshotMeta A).rows.toNat * (t.snapshotMeta A).cols.toNat
    rw [meta_cols, meta_rows, t.length_cells]

/-- A dirty rectangle of the whole size copies all cells. -/
theorem holds_full {t : TermHost T} {s : Mirror}
    (hdirty : (s.backend.render A t).dirty = [⟨0, 0, t.size.cols, t.size.lines⟩]) :
    (s.step A t).Holds := by
  rintro snap ⟨⟩
  show (Consumer.apply _ _).cells = (t.cells A).map some
  have hlength := t.length_cells (A := A)
  simp only [Consumer.apply, hdirty]
  rw [show (s.backend.render A t).cols = (t.snapshotMeta A).cols from rfl,
    show (s.backend.render A t).rows = (t.snapshotMeta A).rows from rfl,
    show (s.backend.render A t).cells = t.cells A from rfl, meta_cols, meta_rows]
  refine table_ext t.size.cols t.size.lines (by simp) (by simpa using hlength) fun y hy x hx => ?_
  have hcovers : Covers [⟨0, 0, t.size.cols, t.size.lines⟩] x y := by
    rw [covers_singleton]
    exact ⟨⟨Nat.zero_le _, by simpa using hx⟩, Nat.zero_le _, by simpa using hy⟩
  have hlt : y * t.size.cols + x < (t.cells A).length := hlength ▸ index_lt hx hy
  rw [getElem?_copied hx hy, if_pos hcovers, List.getElem?_map, List.getElem?_eq_getElem hlt,
    Option.map_some]

/-- One snapshot keeps the consumer complete exactly when no row changes in its
hyperlinks alone. -/
theorem holds_step_iff {t : TermHost T} {s : Mirror} (hs : s.Valid) (hholds : s.Holds) :
    (s.step A t).Holds ↔ LinksShow A t s := by
  cases hshown : s.shown with
  | none =>
      have hprev : s.backend.prev = none := by rw [hs.prev, hshown, Option.map_none]
      refine iff_of_true (holds_full ?_) ?_
      · simp only [HostBackend.render, HostBackend.dirty, hprev, meta_cols, meta_rows]
      · simp [LinksShow, hprev]
  | some snap =>
      have hprev : s.backend.prev = some snap.cells := by rw [hs.prev, hshown, Option.map_some]
      have hcols := hs.cols snap hshown
      have hrows := hs.rows snap hshown
      by_cases hsame : s.backend.prevCols = (t.snapshotMeta A).cols ∧
          s.backend.prevRows = (t.snapshotMeta A).rows
      · have hcells : (s.step A t).consumer.cells =
            (List.range (t.size.lines * t.size.cols)).map fun i =>
              if Covers (coalesce (changedRows t.size.cols t.size.lines snap.cells (t.cells A)))
                  (i % t.size.cols) (i / t.size.cols) then (t.cells A)[i]?
              else snap.cells[i]? := by
          have hconsumer : s.consumer.cells = snap.cells.map some := hholds snap hshown
          have hreset : s.consumer.reset (t.snapshotMeta A).cols (t.snapshotMeta A).rows =
              s.consumer := by
            rw [Consumer.reset, if_pos ⟨hcols ▸ hsame.1, hrows ▸ hsame.2⟩]
          simp only [step, Consumer.apply, HostBackend.render, HostBackend.dirty, hprev,
            if_pos hsame, hreset, hconsumer, meta_cols, meta_rows, List.getElem?_map]
          refine List.map_congr_left fun i _ => ?_
          cases snap.cells[i]? <;> rfl
        have hiff : (s.step A t).Holds ↔ (s.step A t).consumer.cells = (t.cells A).map some := by
          simp [Holds, step, Consumer.Holds, HostBackend.render]
        rw [hiff, hcells, copied_iff (t.length_cells A)]
        simp [LinksShow, hprev, hsame]
      · refine iff_of_true (holds_full ?_) ?_
        · simp only [HostBackend.render, HostBackend.dirty, hprev, if_neg hsame, meta_cols,
            meta_rows]
        · intro prev _ hdims
          exact absurd hdims hsame

/-- Over any run the consumer holds each snapshot in full exactly when no row of
any terminal changes in its hyperlinks alone. -/
theorem holds_iff (ts : List (TermHost T)) :
    (machine A).Along Holds ⟨HostBackend.new, Consumer.empty, none⟩ ts ↔
      (machine A).Meets (LinksShow A) ⟨HostBackend.new, Consumer.empty, none⟩ ts := by
  refine Lts.Machine.along_iff_meets (I := Valid) ?_ ?_ ts ?_ ?_
  · intro t s s' hstep _
    cases hstep
    exact step_valid t s
  · intro t s s' hstep hs hholds
    cases hstep
    exact holds_step_iff hs hholds
  · refine ⟨rfl, ?_, ?_, ?_⟩ <;> intro snap hsnap <;> cases hsnap
  · intro snap hsnap
    cases hsnap

/-- A terminal of one line that shows `a`, and the same under a link. -/
def letter : TermHost Plain := (TermHost.new plain 2 1 0).advance plain [0x61]

def linkedLetter : TermHost Plain :=
  (TermHost.new plain 2 1 0).advance plain
    [0x1b, 0x5d, 0x38, 0x3b, 0x3b, 0x75, 0x07, 0x61]

/-- The link is not in the dirty rectangles, and the consumer goes without it. -/
theorem stale_link : ∃ s, (machine plain).Reachable (fun _ _ => True) s ∧ ¬ s.Holds := by
  have hinit : (machine plain).Init ⟨HostBackend.new, Consumer.empty, none⟩ := rfl
  have hmeets : (machine plain).Meets (fun _ _ => True) ⟨HostBackend.new, Consumer.empty, none⟩
      [letter, linkedLetter] := by
    decide +kernel
  have htest : ((machine plain).run ⟨HostBackend.new, Consumer.empty, none⟩
      [letter, linkedLetter]).any (fun s => decide (¬ s.Holds)) = true := by
    decide +kernel
  rcases Lts.Machine.exists_reachable _ _ hinit hmeets htest with ⟨s, -, hs, hnot⟩
  exact ⟨s, hs, of_decide_eq_true hnot⟩

end Mirror

end RataShell.Term
