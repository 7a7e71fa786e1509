import RataShell.Session.Size
import RataShell.Term.Cell

/-!
# The terminal of alacritty

`alacritty_terminal::Term` is a parameter: a type, what the code reads of it and
the calls it makes (`Alacritty`). `Lawful` states what the code relies on.
-/

namespace RataShell.Term

open Sizes (Size)

/-! ## The alacritty terminal -/

/-- `alacritty_terminal::index::Point`; history has negative lines. -/
structure Point where
  line : Int
  column : Nat
deriving DecidableEq, Repr

/-- The range of a match, both ends included. -/
structure Match where
  start : Point
  stop : Point
deriving DecidableEq, Repr

/-- What the code reads of `alacritty_terminal::Grid`. -/
structure Grid where
  cell : Int → Nat → Cell
  columns : Nat
  screenLines : Nat
  historySize : Nat
  displayOffset : Nat
  cursor : Point

/-- `alacritty_terminal::vte::ansi::CursorShape`. -/
inductive CursorShape where
  | Block | Underline | Beam | HollowBlock | Hidden
deriving DecidableEq, Repr

/-- `alacritty_terminal::vte::ansi::CursorStyle`. -/
structure CursorStyle where
  shape : CursorShape
  blinking : Bool
deriving DecidableEq, Repr

/-- The bits of `alacritty_terminal::term::TermMode` that the code reads. -/
structure TermMode where
  showCursor : Bool
  altScreen : Bool
  appCursor : Bool
  appKeypad : Bool
  bracketedPaste : Bool
  mouseReportClick : Bool
  mouseDrag : Bool
  mouseMotion : Bool
  sgrMouse : Bool
  utf8Mouse : Bool
  vi : Bool
deriving DecidableEq, Repr

/-- `alacritty_terminal::grid::Scroll`, the cases in use. -/
inductive Scroll where
  | Delta (lines : Int)
  | Top
  | Bottom
deriving DecidableEq, Repr

/-- `alacritty_terminal::vi_mode::ViMotion`. -/
inductive ViMotion where
  | Up | Down | Left | Right | First | Last | FirstOccupied | High | Middle | Low
  | WordLeft | WordRight | WordLeftEnd | WordRightEnd
  | SemanticLeft | SemanticRight | SemanticLeftEnd | SemanticRightEnd
  | Bracket | ParagraphUp | ParagraphDown
deriving DecidableEq, Repr

/-- `alacritty_terminal::selection::SelectionType`. -/
inductive SelectionType where
  | Simple | Block | Semantic | Lines
deriving DecidableEq, Repr

/-- `alacritty_terminal::Term` with its `Processor`: a state, what is read of it
and the calls made on it. `R` is a compiled `RegexSearch`. -/
structure Alacritty (T R : Type) where
  grid : T → Grid
  mode : T → TermMode
  cursorStyle : T → CursorStyle
  new : Size → Nat → T
  advance : List UInt8 → T → T
  resize : Size → T → T
  scrollDisplay : Scroll → T → T
  clearSaved : T → T
  toggleViMode : T → T
  viMotion : ViMotion → T → T
  selectionStart : SelectionType → Point → T → T
  selectionUpdate : Point → T → T
  selectionClear : T → T
  regex : String → Option R
  regexSearchRight : R → Point → Point → T → Option Match
  regexSearchLeft : R → Point → Point → T → Option Match
  pointAdd : Grid → Point → Nat → Point
  pointSub : Grid → Point → Nat → Point

/-- The display offset after a scroll: within the history. -/
def Scroll.offset (g : Grid) : Scroll → Nat
  | .Delta lines => min (max (g.displayOffset + lines) 0).toNat g.historySize
  | .Top => g.historySize
  | .Bottom => 0

/-- The columns and lines of the grid. -/
def Alacritty.dims {T R : Type} (A : Alacritty T R) (t : T) : Nat × Nat :=
  ((A.grid t).columns, (A.grid t).screenLines)

/-- What the code relies on: a scroll moves the display offset and nothing else
that is read, clearing the selection nothing, and the grid keeps the size it was
last given. -/
structure Lawful {T R : Type} (A : Alacritty T R) : Prop where
  scroll_grid : ∀ sc t,
    A.grid (A.scrollDisplay sc t) = { A.grid t with displayOffset := sc.offset (A.grid t) }
  scroll_mode : ∀ sc t, A.mode (A.scrollDisplay sc t) = A.mode t
  scroll_cursorStyle : ∀ sc t, A.cursorStyle (A.scrollDisplay sc t) = A.cursorStyle t
  new_dims : ∀ size scrollback, A.dims (A.new size scrollback) = (size.cols, size.lines)
  resize_dims : ∀ size t, A.dims (A.resize size t) = (size.cols, size.lines)
  resize_same : ∀ size t, A.dims t = (size.cols, size.lines) → A.resize size t = t
  advance_dims : ∀ bytes t, A.dims (A.advance bytes t) = A.dims t
  clearSaved_dims : ∀ t, A.dims (A.clearSaved t) = A.dims t
  toggleViMode_dims : ∀ t, A.dims (A.toggleViMode t) = A.dims t
  viMotion_dims : ∀ m t, A.dims (A.viMotion m t) = A.dims t
  selectionStart_dims : ∀ ty p t, A.dims (A.selectionStart ty p t) = A.dims t
  selectionUpdate_dims : ∀ p t, A.dims (A.selectionUpdate p t) = A.dims t
  selectionClear_grid : ∀ t, A.grid (A.selectionClear t) = A.grid t
  selectionClear_mode : ∀ t, A.mode (A.selectionClear t) = A.mode t

theorem Lawful.scroll_dims {T R : Type} {A : Alacritty T R} (hA : Lawful A) (sc : Scroll) (t : T) :
    A.dims (A.scrollDisplay sc t) = A.dims t := by
  simp [Alacritty.dims, hA.scroll_grid]

theorem Lawful.selectionClear_dims {T R : Type} {A : Alacritty T R} (hA : Lawful A) (t : T) :
    A.dims (A.selectionClear t) = A.dims t := by
  simp [Alacritty.dims, hA.selectionClear_grid]

end RataShell.Term
