import RataShell.Term.Host
import RataShell.Term.Points

/-!
# A terminal of plain text

A terminal that `Alacritty` describes: it prints characters, knows line feed,
carriage return, `ESC c`, the hyperlinks of OSC 8, the DEC modes it reports and
the cursor styles, keeps a history and finds words within a line.

* `plain_lawful`, `plain_lawfulSearch`: what the code relies on holds of it.
* `plain_nearest`: its searches return the nearest match.
-/

namespace RataShell.Term

open Sizes (Size)

/-- The lines, history first, the cursor, the display offset, the hyperlink of
the cells to come, an escape sequence under way, the DEC modes that are on, the
cursor style and the vi mode. -/
structure Plain where
  columns : Nat
  lines : Nat
  scrollback : Nat
  text : List (List Cell)
  cursor : Point
  offset : Nat
  link : Option String
  escape : Option (List UInt8)
  modes : List Nat
  style : CursorStyle
  vi : Bool
deriving DecidableEq, Repr

namespace Plain

/-- A cell in the default colours. -/
def plainCell (c : Char) (link : Option String) : Cell where
  c := c
  fg := .Named .Foreground
  bg := .Named .Background
  flags := ⟨false, false, false, false, false, false, false, false, false⟩
  hyperlink := link

/-- An empty line. -/
def blankLine (columns : Nat) : List Cell := List.replicate columns (plainCell ' ' none)

def new (size : Size) (scrollback : Nat) : Plain where
  columns := size.cols
  lines := size.lines
  scrollback := scrollback
  text := List.replicate size.lines (blankLine size.cols)
  cursor := ⟨0, 0⟩
  offset := 0
  link := none
  escape := none
  modes := [25]
  style := ⟨.Block, false⟩
  vi := false

def historySize (p : Plain) : Nat := p.text.length - p.lines

/-- The line of the text that a line of the grid is. -/
def lineIndex (line : Int) (p : Plain) : Nat := (line + p.historySize).toNat

def grid (p : Plain) : Grid where
  cell line col := ((p.text[p.lineIndex line]?).getD [])[col]?.getD (plainCell ' ' none)
  columns := p.columns
  screenLines := p.lines
  historySize := p.historySize
  displayOffset := p.offset
  cursor := p.cursor

def mode (p : Plain) : TermMode where
  showCursor := p.modes.contains 25
  altScreen := false
  appCursor := p.modes.contains 1
  appKeypad := false
  bracketedPaste := p.modes.contains 2004
  mouseReportClick := p.modes.contains 1000
  mouseDrag := p.modes.contains 1002
  mouseMotion := p.modes.contains 1003
  sgrMouse := p.modes.contains 1006
  utf8Mouse := p.modes.contains 1005
  vi := p.vi

/-- A character at the cursor. -/
def print (c : Char) (p : Plain) : Plain :=
  { p with
    text := p.text.modify (p.lineIndex p.cursor.line) (fun row =>
      row.set p.cursor.column (plainCell c p.link))
    cursor := ⟨p.cursor.line, min (p.cursor.column + 1) (p.columns - 1)⟩ }

/-- Down one line; on the last one the text moves up into the history. -/
def lineFeed (p : Plain) : Plain :=
  if p.cursor.line < p.lines - 1 then
    { p with cursor := ⟨p.cursor.line + 1, p.cursor.column⟩ }
  else
    let text := p.text ++ [blankLine p.columns]
    let kept := text.drop (text.length - (p.lines + p.scrollback))
    { p with
      text := kept
      offset := if p.offset = 0 then 0 else min (p.offset + 1) (kept.length - p.lines) }

/-- The hyperlink after `ESC ] 8 ; ; uri BEL` or another such sequence. -/
def osc8 (bytes : List UInt8) (link : Option String) : Option String :=
  if bytes.take 4 = [0x5d, 0x38, 0x3b, 0x3b] then
    let uri := String.ofList ((bytes.drop 4).map fun b => Char.ofNat b.toNat)
    if uri = "" then none else some uri
  else link

/-- A decimal number. -/
def number (bytes : List UInt8) : Nat := bytes.foldl (fun n b => n * 10 + (b.toNat - 0x30)) 0

/-- The cursor styles by their number. -/
def styles : List CursorStyle :=
  [⟨.Block, false⟩, ⟨.Block, true⟩, ⟨.Block, false⟩, ⟨.Underline, true⟩, ⟨.Underline, false⟩,
   ⟨.Beam, true⟩, ⟨.Beam, false⟩]

/-- `ESC [ ? mode h`, `ESC [ ? mode l` and `ESC [ style SP q`. -/
def csi (bytes : List UInt8) (final : UInt8) (p : Plain) : Plain :=
  let mode := number (bytes.drop 2)
  if final = 0x68 then { p with modes := mode :: p.modes }
  else if final = 0x6c then { p with modes := p.modes.filter (· ≠ mode) }
  else if final = 0x71 then
    { p with style := (styles[number (bytes.drop 1).dropLast]?).getD p.style }
  else p

/-- One byte. -/
def feed (p : Plain) (b : UInt8) : Plain :=
  match p.escape with
  | some bytes =>
      if bytes = [] ∧ b = 0x63 then new ⟨p.columns, p.lines⟩ p.scrollback
      else if b = 0x07 then { p with escape := none, link := osc8 bytes p.link }
      else if bytes.head? = some 0x5b ∧ 0x40 ≤ b then { p with escape := none }.csi bytes b
      else { p with escape := some (bytes ++ [b]) }
  | none =>
      if b = 0x1b then { p with escape := some [] }
      else if b = 0x0a then p.lineFeed
      else if b = 0x0d then { p with cursor := ⟨p.cursor.line, 0⟩ }
      else p.print (Char.ofNat b.toNat)

def advance (bytes : List UInt8) (p : Plain) : Plain := bytes.foldl feed p

/-- No line is rewrapped. -/
def resize (size : Size) (p : Plain) : Plain :=
  if (p.columns, p.lines) = (size.cols, size.lines) then p
  else { new size p.scrollback with modes := p.modes, style := p.style, vi := p.vi }

def scrollDisplay (sc : Scroll) (p : Plain) : Plain := { p with offset := sc.offset p.grid }

def clearSaved (p : Plain) : Plain :=
  { p with text := p.text.drop p.historySize, offset := 0 }

/-! ## The nearest match -/

/-- The first that is there. -/
def first {α : Type} (n : Nat) (at? : Nat → Option α) : Option α :=
  ((List.range n).find? fun k => (at? k).isSome).bind at?

theorem first_eq_some {α : Type} {n : Nat} {at? : Nat → Option α} {a : α} :
    first n at? = some a ↔ ∃ k < n, at? k = some a ∧ ∀ j < k, at? j = none := by
  rw [first, Option.bind_eq_some_iff]
  simp only [List.find?_range_eq_some, List.mem_range]
  constructor
  · rintro ⟨k, ⟨-, hk, hbefore⟩, ha⟩
    exact ⟨k, hk, ha, fun j hj => by simpa using hbefore j hj⟩
  · rintro ⟨k, hk, ha, hbefore⟩
    refine ⟨k, ⟨by simp [ha], hk, fun j hj => by simp [hbefore j hj]⟩, ha⟩

/-- Where each place has at most one `a`, the first of those that are there. -/
theorem first_eq_least {α : Type} {n : Nat} {at? : Nat → Option α} (place : α → Nat)
    (Valid : α → Prop) (hat : ∀ k < n, ∀ a, at? k = some a ↔ Valid a ∧ place a = k)
    (hplace : ∀ a, Valid a → place a < n) {a : α} :
    first n at? = some a ↔ Valid a ∧ ∀ b, Valid b → place a ≤ place b := by
  rw [first_eq_some]
  constructor
  · rintro ⟨k, hk, ha, hbefore⟩
    rcases (hat k hk a).1 ha with ⟨hvalid, rfl⟩
    refine ⟨hvalid, fun b hb => ?_⟩
    by_contra hlt
    have hthere := (hat _ (hplace b hb) b).2 ⟨hb, rfl⟩
    rw [hbefore _ (by omega)] at hthere
    cases hthere
  · rintro ⟨hvalid, hleast⟩
    have hn := hplace a hvalid
    refine ⟨place a, hn, (hat _ hn a).2 ⟨hvalid, rfl⟩, fun j hj => ?_⟩
    by_contra hsome
    rcases Option.ne_none_iff_exists'.1 hsome with ⟨b, hb⟩
    rcases (hat j (by omega) b).1 hb with ⟨hb', rfl⟩
    have hle := hleast b hb'
    omega

/-! ## Words -/

/-- The character at a point. -/
def charAt (p : Plain) (line : Int) (col : Nat) : Char := (p.grid.cell line col).c

/-- The end of the word that begins at a point. -/
def endOf (word : List Char) (p : Plain) (a : Point) : Option Point :=
  let b : Point := ⟨a.line, a.column + word.length - 1⟩
  if word ≠ [] ∧ p.grid.Has a ∧ p.grid.Has b ∧
      ∀ i < word.length, word[i]? = some (p.charAt a.line (a.column + i)) then some b
  else none

/-- The start of the word that ends at a point. -/
def startOf (word : List Char) (p : Plain) (b : Point) : Option Point :=
  let a : Point := ⟨b.line, b.column + 1 - word.length⟩
  if p.endOf word a = some b then some a else none

/-- The first match to the right of `o` that ends at `e` or before it. -/
def searchRight (word : List Char) (o e : Point) (p : Plain) : Option Match :=
  first p.grid.count fun k =>
    let a := p.grid.point k
    match p.endOf word a with
    | some b => if o ≤ a ∧ b ≤ e then some ⟨a, b⟩ else none
    | none => none

/-- The first match to the left of `o` that begins at `e` or behind it. -/
def searchLeft (word : List Char) (o e : Point) (p : Plain) : Option Match :=
  first p.grid.count fun k =>
    let b := p.grid.point (p.grid.count - 1 - k)
    match p.startOf word b with
    | some a => if b ≤ o ∧ e ≤ a then some ⟨a, b⟩ else none
    | none => none

/-- Letters and digits stand for themselves. -/
def regex (pattern : String) : Option (List Char) :=
  if pattern.toList.all Char.isAlphanum then some pattern.toList else none

end Plain

/-- The terminal of plain text. Its selection and vi motions show nothing. -/
def plain : Alacritty Plain (List Char) where
  grid := Plain.grid
  mode := Plain.mode
  cursorStyle := Plain.style
  new := Plain.new
  advance := Plain.advance
  resize := Plain.resize
  scrollDisplay := Plain.scrollDisplay
  clearSaved := Plain.clearSaved
  toggleViMode p := { p with vi := !p.vi }
  viMotion _ p := p
  selectionStart _ _ p := p
  selectionUpdate _ p := p
  selectionClear p := p
  regex := Plain.regex
  regexSearchRight := Plain.searchRight
  regexSearchLeft := Plain.searchLeft
  pointAdd g p _ := if g.Has p then g.succ p else g.last
  pointSub g p _ := if g.Has p then g.pred p else g.first

/-! ## Its laws -/

namespace Plain

theorem feed_dims (p : Plain) (b : UInt8) :
    (p.feed b).columns = p.columns ∧ (p.feed b).lines = p.lines := by
  unfold feed lineFeed csi
  simp only
  repeat' split
  all_goals exact ⟨rfl, rfl⟩

theorem advance_dims (bytes : List UInt8) (p : Plain) :
    (p.advance bytes).columns = p.columns ∧ (p.advance bytes).lines = p.lines := by
  induction bytes generalizing p with
  | nil => exact ⟨rfl, rfl⟩
  | cons b bytes ih =>
      rcases ih (p.feed b) with ⟨hcolumns, hlines⟩
      rcases p.feed_dims b with ⟨hcolumns', hlines'⟩
      exact ⟨hcolumns.trans hcolumns', hlines.trans hlines'⟩

end Plain

theorem plain_lawful : Lawful plain := by
  constructor
  · intro sc p
    rfl
  · intro sc p
    rfl
  · intro sc p
    rfl
  · intro size scrollback
    rfl
  · intro size p
    show ((p.resize size).columns, (p.resize size).lines) = _
    unfold Plain.resize
    split
    · assumption
    · rfl
  · intro size p hdims
    exact if_pos hdims
  · intro bytes p
    rcases p.advance_dims bytes with ⟨hcolumns, hlines⟩
    exact Prod.ext hcolumns hlines
  all_goals
    intros
    rfl

theorem plain_lawfulSearch : LawfulSearch plain := by
  have hlast : ∀ g : Grid, 0 < g.columns → 0 < g.screenLines → g.Has g.last := by
    intro g hcolumns hlines
    simp only [Grid.Has, Grid.last]
    omega
  have hfirst : ∀ g : Grid, 0 < g.columns → 0 < g.screenLines → g.Has g.first :=
    fun g hcolumns hlines => Grid.first_has (hlast g hcolumns hlines)
  constructor
  · intro word o e sc p
    rfl
  · intro word o e sc p
    rfl
  · intro g p hcolumns hlines
    show g.Has (if g.Has p then g.succ p else g.last)
    split
    · exact Grid.succ_has (by assumption)
    · exact hlast g hcolumns hlines
  · intro g p hcolumns hlines
    show g.Has (if g.Has p then g.pred p else g.first)
    split
    · exact Grid.pred_has (by assumption)
    · exact hfirst g hcolumns hlines
  · intro g p hp
    exact if_pos hp
  · intro g p hp
    exact if_pos hp

namespace Plain

variable {p : Plain} {word : List Char} {a b : Point}

theorem endOf_has (h : p.endOf word a = some b) : p.grid.Has a ∧ p.grid.Has b ∧ a ≤ b := by
  unfold endOf at h
  simp only at h
  split at h
  · rename_i hword
    rcases hword with ⟨hne, ha, hb, -⟩
    cases h
    have hlen : 0 < word.length := List.length_pos_iff.2 hne
    refine ⟨ha, hb, .inr ⟨rfl, ?_⟩⟩
    simp only
    omega
  · cases h

theorem startOf_has (h : p.startOf word b = some a) : p.grid.Has a ∧ p.grid.Has b ∧ a ≤ b := by
  unfold startOf at h
  simp only at h
  split at h
  · rename_i hend
    cases h
    exact endOf_has hend
  · cases h

theorem searchRight_eq_some {o e : Point} {m : Match} :
    p.searchRight word o e = some m ↔
      p.endOf word m.start = some m.stop ∧ o ≤ m.start ∧ m.stop ≤ e ∧
        ∀ a b, p.endOf word a = some b → o ≤ a → b ≤ e → m.start ≤ a := by
  rw [searchRight, first_eq_least (fun m => p.grid.rank m.start)
    fun m => p.endOf word m.start = some m.stop ∧ o ≤ m.start ∧ m.stop ≤ e]
  · rw [and_assoc, and_assoc]
    refine and_congr_right fun hend => and_congr_right fun _ => and_congr_right fun _ => ?_
    have hhas := (endOf_has hend).1
    constructor
    · intro hleast a b hab ha hb
      exact (Grid.rank_le_iff hhas (endOf_has hab).1).1 (hleast ⟨a, b⟩ ⟨hab, ha, hb⟩)
    · rintro hleast ⟨a, b⟩ ⟨hab, ha, hb⟩
      exact (Grid.rank_le_iff hhas (endOf_has hab).1).2 (hleast a b hab ha hb)
  · rintro k - ⟨a, b⟩
    simp only
    constructor
    · intro hat
      split at hat
      · rename_i b' hend
        split at hat
        · rename_i hin
          cases hat
          exact ⟨⟨hend, hin⟩, Grid.rank_point k⟩
        · cases hat
      · cases hat
    · rintro ⟨⟨hend, hin⟩, rfl⟩
      simp only [Grid.point_rank (endOf_has hend).1, hend, if_pos hin]
  · rintro ⟨a, b⟩ ⟨hend, -, -⟩
    exact Grid.rank_lt_count (endOf_has hend).1

theorem searchLeft_eq_some {o e : Point} {m : Match} :
    p.searchLeft word o e = some m ↔
      p.startOf word m.stop = some m.start ∧ m.stop ≤ o ∧ e ≤ m.start ∧
        ∀ a b, p.startOf word b = some a → b ≤ o → e ≤ a → b ≤ m.stop := by
  -- the points are numbered from the last one on
  have hnum : ∀ b, p.grid.Has b →
      p.grid.count - 1 - (p.grid.count - 1 - p.grid.rank b) = p.grid.rank b := by
    intro b hb
    have hrank := Grid.rank_lt_count hb
    omega
  rw [searchLeft, first_eq_least (fun m => p.grid.count - 1 - p.grid.rank m.stop)
    fun m => p.startOf word m.stop = some m.start ∧ m.stop ≤ o ∧ e ≤ m.start]
  · rw [and_assoc, and_assoc]
    refine and_congr_right fun hstart => and_congr_right fun _ => and_congr_right fun _ => ?_
    have hhas := (startOf_has hstart).2.1
    constructor
    · intro hleast a b hab hb ha
      have hhas' := (startOf_has hab).2.1
      have hle := hleast ⟨a, b⟩ ⟨hab, hb, ha⟩
      have hrank := Grid.rank_lt_count hhas'
      exact (Grid.rank_le_iff hhas' hhas).1 (by simp only at hle; omega)
    · rintro hleast ⟨a, b⟩ ⟨hab, hb, ha⟩
      have hle : p.grid.rank b ≤ p.grid.rank m.stop :=
        (Grid.rank_le_iff (startOf_has hab).2.1 hhas).2 (hleast a b hab hb ha)
      show p.grid.count - 1 - p.grid.rank m.stop ≤ p.grid.count - 1 - p.grid.rank b
      omega
  · rintro k hk ⟨a, b⟩
    simp only
    constructor
    · intro hat
      split at hat
      · rename_i a' hstart
        split at hat
        · rename_i hin
          cases hat
          refine ⟨⟨hstart, hin⟩, ?_⟩
          rw [Grid.rank_point]
          omega
        · cases hat
      · cases hat
    · rintro ⟨⟨hstart, hin⟩, rfl⟩
      have hhas := (startOf_has hstart).2.1
      simp only [hnum b hhas, Grid.point_rank hhas, hstart, if_pos hin]
  · rintro ⟨a, b⟩ ⟨hstart, -, -⟩
    have hrank := Grid.rank_lt_count (startOf_has hstart).2.1
    simp only
    omega

end Plain

theorem plain_nearest (word : List Char) (p : Plain) :
    Nearest plain word p (p.endOf word) (p.startOf word) where
  endOf_has _ _ := Plain.endOf_has
  startOf_has _ _ := Plain.startOf_has
  right _ _ _ := Plain.searchRight_eq_some
  left _ _ _ := Plain.searchLeft_eq_some

end RataShell.Term
