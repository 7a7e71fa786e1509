import RataShell.Control.Cursor
import RataShell.Control.HyperlinkOverlay
import RataShell.Control.Parts
import RataShell.Control.ScrollBar

/-!
# The window

`Paint` draws the window from the back buffer and from fields of the control. Windows calls
it where the window is invalid, and the control makes it so with `Invalidate`.

* `paint`: what is drawn, in its order.
* `aside`: what a message changes of the window beside the control.
* `invalidates`: the messages that end with `Invalidate`, and when they do.
* `Current`, `Kept`: the window is not out of date, and the steps that keep it so.
-/

namespace RataShell.Input.Repaint

open Control
open Cursor (Colors Rect cursorRect hangulCellWidth rgb)
open Term (Alacritty Plain RenderSnapshot plain)

variable {T R : Type}

/-! ## The window -/

/-- A `DrawEvent`. -/
structure Drawing where
  event : RenderSnapshot
  cellW : Int
  cellH : Int
  colors : Colors
deriving DecidableEq, Repr

/-- `FBackBuffer`: its size, the colour it was filled with, and what was drawn since. -/
structure BackBuffer where
  width : Int
  height : Int
  fill : UInt32
  drawn : List Drawing
deriving DecidableEq, Repr

/-- What is drawn into the window. -/
inductive Command where
  | fillRect (r : Rect) (color : UInt32)
  | bitBlt (buffer : BackBuffer) (r : Rect)
  | line (s : Stroke)
  | rectangle (r : Rect)
  | invertRect (r : Rect)
deriving DecidableEq, Repr

/-- The control with what else `Paint` reads: the back buffer and `Colors`, the hovered link,
`FSearchMatchCol` and its like, and the cursor. The window is to be repainted, or shows what
was drawn last. -/
structure Window (T : Type) where
  control : Control T
  buffer : BackBuffer
  colors : Colors
  hover : UInt32
  matchCol : UInt16
  matchRow : UInt16
  matchLen : UInt16
  cursorBlink : Bool
  blinkTimer : Bool
  blinkVisible : Bool
  lastStyle : UInt8
  lastX : Nat
  lastY : Nat
  invalid : Bool
  shown : List Command

/-- `RecreateBuffer`, for a grid of cells. -/
def BackBuffer.recreate (cols rows cellW cellH : Int) (bg : UInt32) (b : BackBuffer) :
    BackBuffer :=
  if b.width ≠ max 1 (cols * cellW) ∨ b.height ≠ max 1 (rows * cellH) then
    ⟨max 1 (cols * cellW), max 1 (rows * cellH), bg, []⟩
  else b

namespace Window

/-! ## `Paint` -/

/-- The back buffer, and what it leaves of the window. -/
def background (w : Window T) : List Command :=
  let right := w.control.clientWidth
  let bottom := w.control.clientHeight
  let bg := w.colors.defaultBg
  if w.buffer.width = 0 ∨ w.buffer.height = 0 then [.fillRect ⟨0, 0, right, bottom⟩ bg]
  else
    .bitBlt w.buffer ⟨0, 0, right, bottom⟩ ::
      ((if w.buffer.width < right then [.fillRect ⟨w.buffer.width, 0, right, bottom⟩ bg]
        else []) ++
        if w.buffer.height < bottom then [.fillRect ⟨0, w.buffer.height, right, bottom⟩ bg]
        else [])

/-- The box around the match of a search. -/
def matchBox (w : Window T) : List Command :=
  if 0 < w.matchLen then
    [.rectangle ⟨w.matchCol.toNat * w.control.cellW, w.matchRow.toNat * w.control.cellH,
      (w.matchCol.toNat + w.matchLen.toNat) * w.control.cellW,
      (w.matchRow.toNat + 1) * w.control.cellH⟩]
  else []

/-- The blink timer is in its off phase. -/
def OffPhase (w : Window T) : Prop := w.blinkTimer = true ∧ w.blinkVisible = false

instance (w : Window T) : Decidable w.OffPhase := inferInstanceAs (Decidable (_ ∧ _))

/-- The remembered cursor is inverted once more. -/
def cursorOverlay (w : Window T) : List Command :=
  if w.OffPhase then
    [.invertRect (cursorRect w.control.cellW.toNat w.control.cellH.toNat w.lastStyle w.lastX
      w.lastY)]
  else []

/-- The track and the thumb. -/
def scrollBar (w : Window T) : List Command :=
  let c := w.control
  if c.scrollBarLeft < c.clientWidth ∧ 0 < c.clientHeight then
    .fillRect ⟨c.scrollBarLeft, 0, c.clientWidth, c.clientHeight⟩ w.colors.defaultBg ::
      if 0 < c.scrollMax ∧ c.scrollThumb.1 < c.scrollThumb.2 then
        [.fillRect ⟨c.scrollBarLeft, c.scrollThumb.1, c.clientWidth, c.scrollThumb.2⟩
          (if c.scrollDraggingThumb then rgb 160 160 160 else rgb 96 96 96)]
      else []
  else []

/-- `Paint`. -/
def paint (w : Window T) : List Command :=
  w.background ++ (w.control.hyperlinkOverlay w.hover).map .line ++ w.matchBox ++
    w.cursorOverlay ++ w.scrollBar

/-! ## Messages -/

/-- `FPainter.Resize`, to the size of the window. -/
def refit (w : Window T) : Window T :=
  let c := w.control
  { w with
    control := { c with cols := c.calcCols, rows := c.calcRows }
    buffer := w.buffer.recreate c.calcCols c.calcRows c.cellW c.cellH w.colors.defaultBg }

/-- `ApplyBlinkState`. -/
def applyBlinkState (w : Window T) : Window T :=
  { w with
    blinkVisible := true
    blinkTimer := w.cursorBlink && decide (w.lastStyle &&& 1 ≠ 0) }

/-- `DrawEvent`, and the cursor that `HandleRenderMessage` remembers. -/
def drawEvent (ev : RenderSnapshot) (w : Window T) : Window T :=
  let w := if ev.cursorStyle ≠ w.lastStyle then
      { w with lastStyle := ev.cursorStyle }.applyBlinkState else w
  let c := w.control
  let buffer :=
    if (ev.cols.toNat : Int) ≠ c.cols ∨ (ev.rows.toNat : Int) ≠ c.rows then
      w.buffer.recreate ev.cols.toNat ev.rows.toNat c.cellW c.cellH w.colors.defaultBg
    else w.buffer
  { w with
    buffer := { buffer with drawn := buffer.drawn ++ [⟨ev, c.cellW, c.cellH, w.colors⟩] }
    lastX := ev.cursorX.toNat
    lastY := ev.cursorY.toNat }

/-- The cursor that `WMImeComposition` predicts. -/
def predict (text : Text) (w : Window T) : Window T :=
  let x := w.lastX + hangulCellWidth text
  if w.control.cols ≤ x then { w with lastX := 0, lastY := w.lastY + 1 }
  else { w with lastX := x }

variable (A : Alacritty T R)

/-- The match that `SearchAgain` keeps. -/
def searchAgain (pattern : String) (forward : Bool) (w : Window T) : Window T :=
  if pattern = "" then w
  else
    match w.control.session with
    | none => { w with matchLen := 0 }
    | some s =>
        let found := (s.host.searchNext A pattern forward).2
        if 0 < found.2.2 then
          { w with matchCol := found.1, matchRow := found.2.1, matchLen := found.2.2 }
        else { w with matchLen := 0 }

/-- `SearchAgain`, if there is a search. -/
def searched (search : Option (String × Bool)) (w : Window T) : Window T :=
  match search with
  | some (pattern, forward) => w.searchAgain A pattern forward
  | none => w

/-- A composition is committed and sent. -/
def Commits (result : Option Text) (c : Control T) : Prop :=
  (∃ text ∈ result, text ≠ []) ∧ c.readOnly = false ∧ c.session.isSome = true

instance (result : Option Text) (c : Control T) : Decidable (Commits result c) :=
  inferInstanceAs (Decidable (_ ∧ _))

/-- What a message changes of the window beside the control. -/
def aside (a : Label) (w : Window T) : Window T :=
  match a with
  | .imeComposition result =>
      if Commits result w.control then w.predict (result.getD []) else w
  | .mouseMove shift ax ay => { w with hover := w.control.moveHover A shift ax ay w.hover }
  | .wmRataRender =>
      match w.control.pendingEvent with
      | none => w
      | some ev => w.drawEvent ev
  | .wmSize width height =>
      { w with control := { w.control with clientWidth := width, clientHeight := height } }.refit
  | .fontChanged cellW cellH =>
      { w with control := { w.control with cellW := cellW, cellH := cellH } }.refit
  | .searchEditChange pattern =>
      if pattern = "" then { w with matchLen := 0 } else w.searchAgain A pattern true
  | .hideSearchBar => if w.control.searchBar then { w with matchLen := 0 } else w
  | .start _ => if w.control.active then w else w.refit
  | .method _ => w
  | a => w.searched A (w.control.searches A a)

/-- `ScrollByLines` scrolls. -/
def scrolls (lines : Int) (c : Control T) : Bool := c.session.isSome && decide (lines ≠ 0)

/-- A click into the scroll bar ends with `Invalidate`. -/
def clickInvalidates (ay : Int) (c : Control T) : Bool :=
  if c.scrollMax = 0 then false
  else if c.scrollThumb.1 ≤ ay ∧ ay ≤ c.scrollThumb.2 then true
  else scrolls (if ay < c.scrollThumb.1 then c.rows else -c.rows) c

/-- A message ends with `Invalidate`, or Windows invalidates the window at it. -/
def invalidates (a : Label) (w : Window T) : Bool :=
  let c := w.control
  match a with
  | .mouseDown button shift ax ay _ _ =>
      !c.opensLink button shift ax ay && (c.downReport A button shift ax ay).isNone &&
        decide (button = .mbLeft ∧ ¬ ax < c.scrollBarLeft ∧ ax ≤ c.clientWidth) &&
          clickInvalidates ay c
  | .mouseMove shift ax ay =>
      decide (c.moveHover A shift ax ay w.hover ≠ w.hover) ||
        ((c.moveReport A shift ax ay).isNone && !c.selectingDrag && c.scrollDraggingThumb &&
          scrolls (c.dragLines ay) c)
  | .mouseUp button shift ax ay =>
      (c.upReport A button shift ax ay).isNone && !c.selectingDrag && c.scrollDraggingThumb
  | .mouseWheel _ _ _ _ => !c.isMouseTrackingActive A && c.session.isSome
  | .wmRataRender => c.pendingEvent.isSome
  -- the class of the window has CS_HREDRAW and CS_VREDRAW
  | .wmSize width height => decide (width ≠ c.clientWidth ∨ height ≠ c.clientHeight)
  | .fontChanged _ _ => true
  | .autoScrollTick => c.selectingDrag && decide (c.autoScrollDir ≠ 0) && c.session.isSome
  | .searchEditChange _ => true
  | .hideSearchBar => c.searchBar
  | .method op =>
      match op with
      | .scroll _ | .scrollToTop | .scrollToBottom | .clearHistory | .resetState =>
          c.session.isSome
      | _ => false
  | a => (c.searches A a).any fun search => decide (search.1 ≠ "")

section

variable {A} {w : Window T}

theorem invalidates_mouseDown {button : MouseButton} {shift : ShiftState} {ax ay : Int}
    {now : UInt32} {doubleClick : Int} :
    w.invalidates A (.mouseDown button shift ax ay now doubleClick) =
      (!w.control.opensLink button shift ax ay &&
        (w.control.downReport A button shift ax ay).isNone &&
          decide (button = .mbLeft ∧ ¬ ax < w.control.scrollBarLeft ∧
            ax ≤ w.control.clientWidth) && clickInvalidates ay w.control) :=
  rfl

theorem invalidates_mouseUp {button : MouseButton} {shift : ShiftState} {ax ay : Int} :
    w.invalidates A (.mouseUp button shift ax ay) =
      ((w.control.upReport A button shift ax ay).isNone && !w.control.selectingDrag &&
        w.control.scrollDraggingThumb) :=
  rfl

theorem invalidates_mouseWheel {shift : ShiftState} {delta ax ay : Int} :
    w.invalidates A (.mouseWheel shift delta ax ay) =
      (!w.control.isMouseTrackingActive A && w.control.session.isSome) :=
  rfl

theorem invalidates_wmRataRender :
    w.invalidates A .wmRataRender = w.control.pendingEvent.isSome :=
  rfl

theorem invalidates_wmSize {width height : Int} :
    w.invalidates A (.wmSize width height) =
      decide (width ≠ w.control.clientWidth ∨ height ≠ w.control.clientHeight) :=
  rfl

theorem invalidates_autoScrollTick :
    w.invalidates A .autoScrollTick =
      (w.control.selectingDrag && decide (w.control.autoScrollDir ≠ 0) &&
        w.control.session.isSome) :=
  rfl

end

/-- The cells of a font have a size (`MeasureCell`). -/
def Measured : Label → Prop
  | .fontChanged cellW cellH => 0 < cellW ∧ 0 < cellH
  | _ => True

instance (a : Label) : Decidable (Measured a) := by
  cases a <;> unfold Measured <;> infer_instance

/-- A message. -/
def message (a : Label) (w : Window T) : Option (Window T) :=
  if Measured a then
    (w.control.step A a).map fun c =>
      { w.aside A a with control := c, invalid := w.invalid || w.invalidates A a }
  else none

end Window

/-- A message, `Paint`, a tick of the blink timer, or a change of `CursorBlink`. -/
inductive Action where
  | message (a : Label)
  | paint
  | blinkTick
  | setCursorBlink (value : Bool)
deriving DecidableEq, Repr

namespace Window

variable (A : Alacritty T R)

def step (a : Action) (w : Window T) : Option (Window T) :=
  match a with
  | .message a => w.message A a
  | .paint => if w.invalid then some { w with invalid := false, shown := w.paint } else none
  | .blinkTick =>
      if w.blinkTimer then some { w with blinkVisible := !w.blinkVisible, invalid := true }
      else none
  | .setCursorBlink value => some { w with cursorBlink := value }

/-- The window shows what `Paint` draws now, or is to be repainted. -/
def Current (w : Window T) : Prop := w.invalid = true ∨ w.shown = w.paint

end Window

open Window

/-- The cells have a size. -/
def Sized (c : Control T) : Prop := 0 < c.cellW ∧ 0 < c.cellH

/-- A window that is to be painted first, with cells that have a size. -/
def machine (A : Alacritty T R) : Lts.Machine (Window T) Action where
  Init w := w.invalid = true ∧ Sized w.control
  step := Window.step A

/-- `FPainter.Resize` has neither to recreate the buffer nor to move the thumb. -/
def Settled (w : Window T) : Prop := w.refit.buffer = w.buffer ∧ w.refit.scrollBar = w.scrollBar

/-- No cursor is predicted while the shown one is off, and the painter is not resized without
a change of the window, or at a start, unless it is settled. -/
def Kept : Lts.StepCond (Window T) Action := fun a w =>
  w.invalid = true ∨
    match a with
    | .message (.imeComposition result) => Commits result w.control → ¬ w.OffPhase
    | .message (.start _) => w.control.active = true ∨ Settled w
    | .message (.wmSize width height) =>
        width ≠ w.control.clientWidth ∨ height ≠ w.control.clientHeight ∨ Settled w
    | _ => True

instance (w : Window T) : Decidable (Settled w) := inferInstanceAs (Decidable (_ ∧ _))

instance (a : Action) (w : Window T) : Decidable (Kept a w) := by
  unfold Kept
  split <;> infer_instance

end RataShell.Input.Repaint
