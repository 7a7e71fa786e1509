import RataShell.Control.Input

/-!
# The mouse

The mouse handlers of `TSCRataShell`. While the terminal tracks the mouse they
report it in an escape sequence; otherwise they select text and scroll.

* `downReport`, `moveReport`, `upReport`, `wheelReport`: the message is reported,
  and with which button, column and row.
* `sendMouseSequence`: the report.
-/

namespace RataShell.Input

open Term (Alacritty)

variable {T R : Type}

inductive MouseButton where
  | mbLeft | mbRight | mbMiddle
deriving DecidableEq, Repr

/-- `TShiftState`, the keys and buttons that are read. -/
structure ShiftState where
  ssShift : Bool
  ssAlt : Bool
  ssCtrl : Bool
  ssLeft : Bool
  ssRight : Bool
  ssMiddle : Bool
deriving DecidableEq, Repr

/-- Nothing is held. -/
def noKeys : ShiftState := ⟨false, false, false, false, false, false⟩

/-- Button, column and row of a mouse sequence. -/
structure Report where
  cb : Nat
  col : Nat
  row : Nat
deriving DecidableEq, Repr

def RATA_MODE_MOUSE_REPORT_CLICK : UInt32 := 0x10
def RATA_MODE_MOUSE_DRAG : UInt32 := 0x20
def RATA_MODE_MOUSE_MOTION : UInt32 := 0x40
def RATA_MODE_SGR_MOUSE : UInt32 := 0x80
def RATA_MODE_UTF8_MOUSE : UInt32 := 0x100

/-- `MouseModifiersBits`. -/
def mouseModifiersBits (shift : ShiftState) : Nat :=
  (if shift.ssShift then 4 else 0) ||| (if shift.ssAlt then 8 else 0) |||
    (if shift.ssCtrl then 16 else 0)

/-- The button of a press or a release. -/
def buttonCode : MouseButton → Nat
  | .mbLeft => 0
  | .mbMiddle => 1
  | .mbRight => 2

/-- The button of a move. -/
def motionCode (shift : ShiftState) : Nat :=
  32 ||| (if shift.ssLeft then 0 else if shift.ssMiddle then 1 else if shift.ssRight then 2 else 3)

/-! ## Mouse sequences -/

/-- The bytes of an ASCII string. -/
def ascii (s : String) : List UInt8 := s.toList.map fun ch => UInt8.ofNat ch.toNat

/-- `EncodeUtf8Cp`. -/
def encodeUtf8Cp (c : Nat) : List UInt8 :=
  if c < 0x80 then [.ofNat c]
  else if c < 0x800 then [0xC0 ||| .ofNat (c >>> 6), 0x80 ||| .ofNat (c &&& 0x3F)]
  else [0xE0 ||| .ofNat (c >>> 12), 0x80 ||| .ofNat ((c >>> 6) &&& 0x3F),
    0x80 ||| .ofNat (c &&& 0x3F)]

/-- The bytes of `SendMouseSequence`. -/
def mouseSequence (mode : UInt32) (r : Report) (press : Bool) : List UInt8 :=
  if mode &&& RATA_MODE_SGR_MOUSE ≠ 0 then
    ascii ("\x1b[<" ++ toString r.cb ++ ";" ++ toString r.col ++ ";" ++ toString r.row ++
      (if press then "M" else "m"))
  else if mode &&& RATA_MODE_UTF8_MOUSE ≠ 0 then
    -- a release keeps its button here
    ascii "\x1b[M" ++ [.ofNat (r.cb + 32)] ++ encodeUtf8Cp (min r.col 2015 + 32) ++
      encodeUtf8Cp (min r.row 2015 + 32)
  else
    ascii "\x1b[M" ++ [.ofNat ((if press then r.cb else 3) + 32), .ofNat (min r.col 222 + 32),
      .ofNat (min r.row 222 + 32)]

/-- `MulDiv` of Windows: rounded to the nearest, -1 where it fails. -/
def mulDiv (a b c : Int) : Int :=
  if c = 0 then -1
  else
    let q : Int := ((a * b).natAbs + c.natAbs / 2) / c.natAbs
    let r := if a * b < 0 ↔ c < 0 then q else -q
    if r < -2147483648 ∨ 2147483647 < r then -1 else r

/-- `Integer` of a `UInt32`. -/
def asInteger (u : UInt32) : Int := u.toInt32.toInt

namespace Control

variable (A : Alacritty T R)

/-! ## What the mouse points at -/

/-- `IsMouseTrackingActive`. -/
def isMouseTrackingActive (c : Control T) : Bool :=
  c.modeFlags A &&&
    (RATA_MODE_MOUSE_REPORT_CLICK ||| RATA_MODE_MOUSE_DRAG ||| RATA_MODE_MOUSE_MOTION) ≠ 0

/-- `ScrollBarRect.Left`. -/
def scrollBarLeft (c : Control T) : Int := c.clientWidth - 12

/-- `MouseToCell`, counted from 1. -/
def mouseToCell (ax ay : Int) (c : Control T) : Option (Nat × Nat) :=
  if c.cellW ≤ 0 ∨ c.cellH ≤ 0 then none
  else some (((max ax 0).tdiv c.cellW).toNat + 1, ((max ay 0).tdiv c.cellH).toNat + 1)

/-- `HyperlinkAt`. -/
def hyperlinkAt (col row : Nat) (c : Control T) : UInt32 :=
  if c.lastCols.toNat ≤ col ∨ c.lastRows.toNat ≤ row then 0
  else ((c.lastCells[row * c.lastCols.toNat + col]?).map (·.hyperlinkId)).getD 0

/-- `HyperlinkUri`. -/
def hyperlinkUri (id : UInt32) (c : Control T) : String :=
  match c.session with
  | none => ""
  | some s => s.host.hyperlinkUri id

/-- `Top` and `Bottom` of `ScrollThumbRect`. -/
def scrollThumb (c : Control T) : Int × Int :=
  if c.scrollMax = 0 ∨ c.clientHeight ≤ 0 then (0, 0)
  else
    let height := min (max 24 (mulDiv c.clientHeight c.rows (asInteger c.scrollMax + c.rows)))
      c.clientHeight
    let top := mulDiv (c.clientHeight - height) (asInteger c.scrollMax - asInteger c.scrollOffset)
      (asInteger c.scrollMax)
    (top, top + height)

/-- Left of the scroll bar while the mouse is tracked, the cell. -/
def trackedCell (ax ay : Int) (c : Control T) : Option (Nat × Nat) :=
  if c.isMouseTrackingActive A ∧ ax < c.scrollBarLeft then c.mouseToCell ax ay else none

/-- Ctrl and the left button on a hyperlink open it. -/
def opensLink (button : MouseButton) (shift : ShiftState) (ax ay : Int) (c : Control T) : Bool :=
  button = .mbLeft && shift.ssCtrl && decide (ax < c.scrollBarLeft) &&
    match c.mouseToCell ax ay with
    | none => false
    | some (col, row) =>
        let id := c.hyperlinkAt (col - 1) (row - 1)
        id ≠ 0 && c.hyperlinkUri id ≠ ""

/-! ## Reports -/

/-- `MouseDown` reports the button. -/
def downReport (button : MouseButton) (shift : ShiftState) (ax ay : Int) (c : Control T) :
    Option Report :=
  if c.opensLink button shift ax ay then none
  else (c.trackedCell A ax ay).map fun p =>
    ⟨buttonCode button ||| mouseModifiersBits shift, p.1, p.2⟩

/-- `LSendMotion`. -/
def sendMotion (shift : ShiftState) (c : Control T) : Bool :=
  if c.modeFlags A &&& RATA_MODE_MOUSE_DRAG ≠ 0 then
    shift.ssLeft || shift.ssRight || shift.ssMiddle
  else c.modeFlags A &&& RATA_MODE_MOUSE_MOTION ≠ 0

/-- `MouseMove` reports the move. -/
def moveReport (shift : ShiftState) (ax ay : Int) (c : Control T) : Option Report :=
  if c.sendMotion A shift then
    (c.trackedCell A ax ay).map fun p => ⟨motionCode shift ||| mouseModifiersBits shift, p.1, p.2⟩
  else none

/-- `MouseUp` reports the button. -/
def upReport (button : MouseButton) (shift : ShiftState) (ax ay : Int) (c : Control T) :
    Option Report :=
  (c.trackedCell A ax ay).map fun p => ⟨buttonCode button ||| mouseModifiersBits shift, p.1, p.2⟩

/-- `DoMouseWheel` reports the turn, also over the scroll bar. -/
def wheelReport (shift : ShiftState) (delta ax ay : Int) (c : Control T) : Option Report :=
  if c.isMouseTrackingActive A then
    (c.mouseToCell ax ay).map fun p =>
      ⟨(if 0 < delta then 64 else 65) ||| mouseModifiersBits shift, p.1, p.2⟩
  else none

/-- `SendMouseSequence`. -/
def sendMouseSequence (r : Report) (press : Bool) (c : Control T) : Control T :=
  if c.session.isNone then c else c.rataSendText (mouseSequence (c.modeFlags A) r press)

/-! ## Handlers -/

/-- The start of a selection: one click selects freely, two a word, three a line. -/
def startSelection (shift : ShiftState) (ax ay : Int) (col row : Nat) (now : UInt32)
    (doubleClick : Int) (c : Control T) : Control T :=
  let again := (now - c.lastClickTime).toInt32.toInt < doubleClick ∧
    |ax - c.lastClickX| < 5 ∧ |ay - c.lastClickY| < 5
  let clicks := if again then c.consecutiveClicks + 1 else 1
  let kind : UInt8 :=
    if clicks = 2 then 2 else if clicks = 3 then 3 else if shift.ssAlt then 1 else 0
  { { c with
      lastClickTime := now
      lastClickX := ax
      lastClickY := ay
      consecutiveClicks := if clicks = 3 then 0 else clicks }.selectionStart A
        (word (col - 1 : Nat)) (word (row - 1 : Nat)) kind with
    selectingDrag := true }

/-- A click into the scroll bar. -/
def clickScrollBar (ay : Int) (c : Control T) : Control T :=
  if c.scrollMax = 0 then c
  else
    let thumb := c.scrollThumb
    if thumb.1 ≤ ay ∧ ay ≤ thumb.2 then
      { c with scrollDraggingThumb := true, scrollThumbDragOffset := ay - thumb.1 }
    else c.scrollByLines A (if ay < thumb.1 then c.rows else -c.rows)

/-- `MouseDown`, with the tick count and the double click time. -/
def mouseDown (button : MouseButton) (shift : ShiftState) (ax ay : Int) (now : UInt32)
    (doubleClick : Int) (c : Control T) : Control T :=
  if c.opensLink button shift ax ay then c
  else
    match c.downReport A button shift ax ay with
    | some r => c.sendMouseSequence A r true
    | none =>
        if button = .mbLeft then
          if ax < c.scrollBarLeft then
            if c.isMouseTrackingActive A then c
            else
              match c.mouseToCell ax ay with
              | some (col, row) => c.startSelection A shift ax ay col row now doubleClick
              | none => c
          else if ax ≤ c.clientWidth then c.clickScrollBar A ay
          else c
        else c

/-- The selection follows the mouse; outside of the window it scrolls. -/
def dragSelection (ax ay : Int) (c : Control T) : Control T :=
  let c :=
    if ay < 0 then
      { c with autoScrollDir := -1, autoScrollLastX := ax, autoScrollTimer := true }
    else if c.clientHeight < ay then
      { c with autoScrollDir := 1, autoScrollLastX := ax, autoScrollTimer := true }
    else { c with autoScrollTimer := false, autoScrollDir := 0 }
  match c.mouseToCell ax ay with
  | some (col, row) => c.selectionExtend A (word (col - 1 : Nat)) (word (row - 1 : Nat))
  | none => c

/-- The view follows the thumb. -/
def dragThumb (ay : Int) (c : Control T) : Control T :=
  let max' := asInteger c.scrollMax
  let height := max 24 (mulDiv c.clientHeight c.rows (max' + c.rows))
  let range := c.clientHeight - height
  if range ≤ 0 then c
  else
    let pos := min (max (ay - c.scrollThumbDragOffset) 0) range
    let offset := min (max (mulDiv (range - pos) max' range) 0) max'
    c.scrollByLines A (offset - asInteger c.scrollOffset)

/-- `MouseMove`, less the hyperlink under the mouse, which is only shown. -/
def mouseMove (shift : ShiftState) (ax ay : Int) (c : Control T) : Control T :=
  match c.moveReport A shift ax ay with
  | some r => c.sendMouseSequence A r true
  | none =>
      if c.selectingDrag then c.dragSelection A ax ay
      else if c.scrollDraggingThumb then c.dragThumb A ay
      else c

/-- `MouseUp`. -/
def mouseUp (button : MouseButton) (shift : ShiftState) (ax ay : Int) (c : Control T) : Control T :=
  match c.upReport A button shift ax ay with
  | some r => c.sendMouseSequence A r false
  | none =>
      if c.selectingDrag then
        { c with selectingDrag := false, autoScrollTimer := false, autoScrollDir := 0 }
      else { c with scrollDraggingThumb := false }

/-- `DoMouseWheel`. -/
def doMouseWheel (shift : ShiftState) (delta ax ay : Int) (c : Control T) : Control T :=
  if c.isMouseTrackingActive A then
    match c.wheelReport A shift delta ax ay with
    | some r => c.sendMouseSequence A r true
    | none => c
  else c.scrollByLines A (if 0 < delta then 3 else -3)

/-- `DoAutoScrollTick`. -/
def doAutoScrollTick (c : Control T) : Control T :=
  if !c.selectingDrag ∨ c.autoScrollDir = 0 then { c with autoScrollTimer := false }
  else
    let c := c.scrollByLines A (-c.autoScrollDir)
    match c.mouseToCell c.autoScrollLastX
        (if c.autoScrollDir < 0 then 0 else c.clientHeight - 1) with
    | some (col, row) => c.selectionExtend A (word (col - 1 : Nat)) (word (row - 1 : Nat))
    | none => c

end Control

end RataShell.Input
