import RataShell.Term.Alacritty

/-!
# The terminal host

`TermHost` of `term.rs` over the terminal of alacritty.

* `snapshot`: the viewport as cells and cursor, with its hyperlinks registered.
* `searchNext`: one search, from the origin that the last one left.
* `length_cells`, `getElem?_cells`: a frame has `cols * rows` cells, that of
  each row and column in its place.
-/

namespace RataShell.Term

open Sizes (Size)

variable {T R : Type}

/-! ## Tables -/

theorem length_flatMap_range {α : Type} {f : Nat → List α} {n : Nat} (hf : ∀ i, (f i).length = n)
    (m : Nat) : ((List.range m).flatMap f).length = m * n := by
  induction m with
  | zero => simp
  | succ m ih =>
      rw [List.range_succ, List.flatMap_append, List.length_append, ih, Nat.succ_mul]
      simp [hf]

/-- Row `r` of a table is its `r`-th block. -/
theorem getElem?_flatMap_range {α : Type} {f : Nat → List α} {n : Nat} (hf : ∀ i, (f i).length = n)
    {m r c : Nat} (hr : r < m) (hc : c < n) :
    ((List.range m).flatMap f)[r * n + c]? = (f r)[c]? := by
  induction m with
  | zero => omega
  | succ m ih =>
      rw [List.range_succ, List.flatMap_append]
      rcases Nat.lt_or_ge r m with hlt | hge
      · have hrow : (r + 1) * n ≤ m * n := Nat.mul_le_mul_right n hlt
        rw [Nat.succ_mul] at hrow
        rw [List.getElem?_append_left (by rw [length_flatMap_range hf]; omega), ih hlt]
      · have hrm : r = m := by omega
        subst hrm
        rw [List.getElem?_append_right (by rw [length_flatMap_range hf]; omega),
          length_flatMap_range hf]
        simp

/-! ## The host -/

/-- `TermHost`, less the OSC 7 scanner and the title. The size is always one that
`Size::new` makes. -/
structure TermHost (T : Type) where
  term : T
  size : Size
  hyperlinks : UInt32 → Option String
  searchPattern : String
  searchOrigin : Option Point
  size_new : ∃ cols rows : UInt16, size = Size.new cols.toNat rows.toNat

namespace TermHost

variable (A : Alacritty T R)

/-- `TermHost::new`. -/
def new (cols rows : UInt16) (scrollback : Nat) : TermHost T where
  term := A.new (Size.new cols.toNat rows.toNat) scrollback
  size := Size.new cols.toNat rows.toNat
  hyperlinks := fun _ => none
  searchPattern := ""
  searchOrigin := none
  size_new := ⟨cols, rows, rfl⟩

/-! ## Operations -/

/-- `TermHost::resize`. -/
def resize (cols rows : UInt16) (t : TermHost T) : TermHost T :=
  { t with
    size := Size.new cols.toNat rows.toNat
    term := A.resize (Size.new cols.toNat rows.toNat) t.term
    size_new := ⟨cols, rows, rfl⟩ }

/-- `TermHost::advance`, its part for the parser. -/
def advance (bytes : List UInt8) (t : TermHost T) : TermHost T :=
  { t with term := A.advance bytes t.term }

/-- `TermHost::scroll_display`. -/
def scrollDisplay (lines : Int32) (t : TermHost T) : TermHost T :=
  { t with term := A.scrollDisplay (.Delta lines.toInt) t.term }

/-- `TermHost::scroll_to_top`. -/
def scrollToTop (t : TermHost T) : TermHost T :=
  { t with term := A.scrollDisplay .Top t.term }

/-- `TermHost::scroll_to_bottom`. -/
def scrollToBottom (t : TermHost T) : TermHost T :=
  { t with term := A.scrollDisplay .Bottom t.term }

/-- `TermHost::display_offset`. -/
def displayOffset (t : TermHost T) : Nat := (A.grid t.term).displayOffset

/-- `TermHost::history_size`. -/
def historySize (t : TermHost T) : Nat := (A.grid t.term).historySize

/-- `TermHost::clear_history`. -/
def clearHistory (t : TermHost T) : TermHost T := { t with term := A.clearSaved t.term }

/-- `TermHost::reset_state`: `ESC c`. -/
def resetState (t : TermHost T) : TermHost T := { t with term := A.advance [0x1b, 0x63] t.term }

/-- `TermHost::toggle_vi_mode`. -/
def toggleViMode (t : TermHost T) : TermHost T := { t with term := A.toggleViMode t.term }

/-- `TermHost::vi_mode_active`. -/
def viModeActive (t : TermHost T) : Bool := (A.mode t.term).vi

/-- The motions of `vi_motion` by their number. -/
def viMotions : List ViMotion :=
  [.Up, .Down, .Left, .Right, .First, .Last, .FirstOccupied, .High, .Middle, .Low,
   .WordLeft, .WordRight, .WordLeftEnd, .WordRightEnd,
   .SemanticLeft, .SemanticRight, .SemanticLeftEnd, .SemanticRightEnd,
   .Bracket, .ParagraphUp, .ParagraphDown]

/-- `TermHost::vi_motion`. -/
def viMotion (kind : UInt8) (t : TermHost T) : TermHost T :=
  match viMotions[kind.toNat]? with
  | some m => { t with term := A.viMotion m t.term }
  | none => t

/-- The grid point of a cell of the viewport. -/
def viewPoint (col row : UInt16) (t : TermHost T) : Point where
  line := (row.toNat : Int) - t.displayOffset A
  column := col.toNat

/-- `TermHost::selection_start`. -/
def selectionStart (col row : UInt16) (kind : UInt8) (t : TermHost T) : TermHost T :=
  let st : SelectionType :=
    if kind = 1 then .Block else if kind = 2 then .Semantic else if kind = 3 then .Lines
    else .Simple
  { t with term := A.selectionStart st (t.viewPoint A col row) t.term }

/-- `TermHost::selection_extend`. -/
def selectionExtend (col row : UInt16) (t : TermHost T) : TermHost T :=
  { t with term := A.selectionUpdate (t.viewPoint A col row) t.term }

/-- `TermHost::selection_clear`. -/
def selectionClear (t : TermHost T) : TermHost T := { t with term := A.selectionClear t.term }

/-- The bit of a flag of `mode_flags`. -/
def bit (flag : Bool) (n : UInt32) : UInt32 := if flag then 1 <<< n else 0

/-- `TermHost::mode_flags`. -/
def modeFlags (t : TermHost T) : UInt32 :=
  let m := A.mode t.term
  bit m.altScreen 0 ||| bit m.appCursor 1 ||| bit m.appKeypad 2 ||| bit m.bracketedPaste 3 |||
    bit m.mouseReportClick 4 ||| bit m.mouseDrag 5 ||| bit m.mouseMotion 6 |||
    bit m.sgrMouse 7 ||| bit m.utf8Mouse 8

/-! ## Snapshots -/

/-- `SnapshotMeta`. -/
structure Meta where
  cols : UInt16
  rows : UInt16
  cursorX : UInt16
  cursorY : UInt16
  cursorVisible : Bool
  altActive : Bool
  appCursorKeys : Bool
  cursorStyle : UInt8
deriving DecidableEq, Repr

/-- The grid cell that the viewport shows at a row and column. -/
def viewCell (row col : Nat) (t : TermHost T) : Cell :=
  (A.grid t.term).cell ((row : Int) - t.displayOffset A) col

/-- The grid cells of the viewport, row by row. -/
def viewCells (t : TermHost T) : List Cell :=
  (List.range t.size.lines).flatMap fun row =>
    (List.range t.size.cols).map fun col => t.viewCell A row col

/-- `convert_cell` and the id of the cell's hyperlink. -/
def hostCell (c : Cell) : HostCell :=
  match c.hyperlink with
  | none => convertCell c
  | some uri => { convertCell c with hyperlinkId := hashUri uri }

/-- `hyperlinks.entry(id).or_insert_with(uri)` for the hyperlink of a cell. -/
def register (links : UInt32 → Option String) (c : Cell) : UInt32 → Option String :=
  match c.hyperlink with
  | none => links
  | some uri =>
      match links (hashUri uri) with
      | some _ => links
      | none => fun id => if id = hashUri uri then some uri else links id

/-- The VT number of a cursor style. -/
def cursorStyleNumber (style : CursorStyle) : UInt8 :=
  match style.shape with
  | .Underline => if style.blinking then 3 else 4
  | .Beam => if style.blinking then 5 else 6
  | .Hidden => 0
  | .Block | .HollowBlock => if style.blinking then 1 else 2

/-- The row of the viewport that the cursor's line has, if it is in view. -/
def cursorLine (t : TermHost T) : Int :=
  (A.grid t.term).cursor.line + t.displayOffset A

/-- The cursor's line is in view. -/
def CursorInView (t : TermHost T) : Prop :=
  0 ≤ t.cursorLine A ∧ t.cursorLine A < t.size.lines

instance (t : TermHost T) : Decidable (t.CursorInView A) :=
  inferInstanceAs (Decidable (_ ∧ _))

/-- The `SnapshotMeta` of `TermHost::snapshot`. -/
def snapshotMeta (t : TermHost T) : Meta where
  cols := UInt16.ofNat t.size.cols
  rows := UInt16.ofNat t.size.lines
  cursorX := UInt16.ofNat (min (A.grid t.term).cursor.column (t.size.cols - 1))
  cursorY := UInt16.ofNat (min (max (t.cursorLine A) 0) (t.size.lines - 1)).toNat
  cursorVisible :=
    (A.mode t.term).showCursor && decide ((A.cursorStyle t.term).shape ≠ .Hidden) &&
      decide (t.CursorInView A)
  altActive := (A.mode t.term).altScreen
  appCursorKeys := (A.mode t.term).appCursor
  cursorStyle := cursorStyleNumber (A.cursorStyle t.term)

/-- The cells of `TermHost::snapshot`. -/
def cells (t : TermHost T) : List HostCell := (t.viewCells A).map hostCell

/-- `TermHost::snapshot`, as it leaves the host. -/
def snapshot (t : TermHost T) : TermHost T :=
  { t with hyperlinks := (t.viewCells A).foldl register t.hyperlinks }

/-- `hyperlink_uri` of `Session`. -/
def hyperlinkUri (id : UInt32) (t : TermHost T) : String :=
  if id = 0 then "" else (t.hyperlinks id).getD ""

/-! ## Search -/

/-- Where `search_next` starts. -/
def searchFrom (forward : Bool) (t : TermHost T) : Point :=
  let g := A.grid t.term
  match t.searchOrigin with
  | some p => if forward then A.pointAdd g p 1 else A.pointSub g p 1
  | none => g.cursor

/-- The match that `search_next` finds. -/
def find (regex : R) (forward : Bool) (t : TermHost T) : Option Match :=
  if forward then
    A.regexSearchRight regex (t.searchFrom A forward) ⟨t.size.lines - 1, t.size.cols - 1⟩ t.term
  else
    A.regexSearchLeft regex (t.searchFrom A forward) ⟨-(t.historySize A : Int), 0⟩ t.term

/-- A changed pattern starts afresh. -/
def setPattern (pattern : String) (t : TermHost T) : TermHost T :=
  if t.searchPattern = pattern then t
  else { t with searchPattern := pattern, searchOrigin := none }

/-- The scroll of `search_next` that brings a line into view. -/
def showLine (line : Int) (t : TermHost T) : TermHost T :=
  let off : Int := t.displayOffset A
  if line < -off then
    { t with term := A.scrollDisplay (.Delta (-off - line)) t.term }
  else if line > t.size.lines - 1 - off then
    { t with term := A.scrollDisplay (.Delta (t.size.lines - 1 - off - line)) t.term }
  else t

/-- The length of a match on its first line. -/
def matchLen (m : Match) (t : TermHost T) : Nat :=
  if m.stop.line = m.start.line then m.stop.column + 1 - m.start.column
  else t.size.cols - m.start.column

/-- The column, row and length of a match in the viewport. -/
def place (m : Match) (t : TermHost T) : UInt16 × UInt16 × UInt16 :=
  let row : Int := m.start.line + t.displayOffset A
  if row < 0 ∨ row ≥ t.size.lines then (0, 0, 0)
  else (UInt16.ofNat m.start.column, UInt16.ofNat row.toNat, UInt16.ofNat (t.matchLen m))

/-- `TermHost::search_next`. -/
def searchNext (pattern : String) (forward : Bool) (t : TermHost T) :
    TermHost T × (UInt16 × UInt16 × UInt16) :=
  if pattern = "" then (t, (0, 0, 0))
  else
    match A.regex pattern with
    | none => (t, (0, 0, 0))
    | some regex =>
        match (t.setPattern pattern).find A regex forward with
        | none => ({ t.setPattern pattern with searchOrigin := none }, (0, 0, 0))
        | some m =>
            let shown :=
              { t.setPattern pattern with searchOrigin := some m.start }.showLine A m.start.line
            (shown, shown.place A m)

/-! ## Frames -/

/-- `Size::new` of two `u16`. -/
theorem size_bounds (t : TermHost T) :
    (2 ≤ t.size.cols ∧ t.size.cols < 65536) ∧ 1 ≤ t.size.lines ∧ t.size.lines < 65536 := by
  rcases t.size_new with ⟨cols, rows, hsize⟩
  have hcols := cols.toNat_lt
  have hrows := rows.toNat_lt
  rw [hsize]
  simp only [Sizes.Size.new]
  omega

theorem length_cells (t : TermHost T) : (t.cells A).length = t.size.lines * t.size.cols := by
  rw [cells, List.length_map, viewCells, length_flatMap_range]
  simp

theorem getElem?_cells {t : TermHost T} {row col : Nat} (hrow : row < t.size.lines)
    (hcol : col < t.size.cols) :
    (t.cells A)[row * t.size.cols + col]? = some (hostCell (t.viewCell A row col)) := by
  rw [cells, List.getElem?_map, viewCells, getElem?_flatMap_range (by simp) hrow hcol]
  simp [hcol]

/-! ## The parts of a search -/

@[simp] theorem setPattern_term (pattern : String) (t : TermHost T) :
    (t.setPattern pattern).term = t.term := by
  unfold setPattern
  split <;> rfl

@[simp] theorem setPattern_size (pattern : String) (t : TermHost T) :
    (t.setPattern pattern).size = t.size := by
  unfold setPattern
  split <;> rfl

@[simp] theorem setPattern_searchPattern (pattern : String) (t : TermHost T) :
    (t.setPattern pattern).searchPattern = pattern := by
  unfold setPattern
  split
  · assumption
  · rfl

theorem setPattern_of_eq {pattern : String} {t : TermHost T} (h : t.searchPattern = pattern) :
    t.setPattern pattern = t := by
  simp [setPattern, h]

/-- A line is brought into view by one scroll, or is in view. -/
theorem showLine_cases (line : Int) (t : TermHost T) :
    t.showLine A line = t ∨
      ∃ sc, t.showLine A line = { t with term := A.scrollDisplay sc t.term } := by
  simp only [showLine]
  split
  · exact .inr ⟨_, rfl⟩
  · split
    · exact .inr ⟨_, rfl⟩
    · exact .inl rfl

@[simp] theorem showLine_size (line : Int) (t : TermHost T) :
    (t.showLine A line).size = t.size := by
  rcases showLine_cases A line t with hsame | ⟨sc, hscroll⟩
  · rw [hsame]
  · rw [hscroll]

@[simp] theorem showLine_searchPattern (line : Int) (t : TermHost T) :
    (t.showLine A line).searchPattern = t.searchPattern := by
  rcases showLine_cases A line t with hsame | ⟨sc, hscroll⟩
  · rw [hsame]
  · rw [hscroll]

@[simp] theorem showLine_searchOrigin (line : Int) (t : TermHost T) :
    (t.showLine A line).searchOrigin = t.searchOrigin := by
  rcases showLine_cases A line t with hsame | ⟨sc, hscroll⟩
  · rw [hsame]
  · rw [hscroll]

end TermHost

/-! ## Calls of the host -/

/-- The operations of `Session` that the host calls, with their arguments. -/
inductive Op where
  | resize (cols rows : UInt16)
  | scroll (lines : Int32)
  | scrollToTop
  | scrollToBottom
  | clearHistory
  | resetState
  | selectionStart (col row : UInt16) (kind : UInt8)
  | selectionExtend (col row : UInt16)
  | selectionClear
  | toggleViMode
  | viMotion (kind : UInt8)
  | searchNext (pattern : String) (forward : Bool)
deriving DecidableEq, Repr

/-- What an operation does to the terminal host. -/
def Op.host (A : Alacritty T R) : Op → TermHost T → TermHost T
  | .resize cols rows, t => t.resize A cols rows
  | .scroll lines, t => t.scrollDisplay A lines
  | .scrollToTop, t => t.scrollToTop A
  | .scrollToBottom, t => t.scrollToBottom A
  | .clearHistory, t => t.clearHistory A
  | .resetState, t => t.resetState A
  | .selectionStart col row kind, t => t.selectionStart A col row kind
  | .selectionExtend col row, t => t.selectionExtend A col row
  | .selectionClear, t => t.selectionClear A
  | .toggleViMode, t => t.toggleViMode A
  | .viMotion kind, t => t.viMotion A kind
  | .searchNext pattern forward, t => (t.searchNext A pattern forward).1

end RataShell.Term
