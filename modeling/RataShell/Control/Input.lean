import RataShell.Control.Text
import RataShell.Term.Freshness

/-!
# Input of the control

`TSCRataShell` as far as it takes input, over a session of the terminal: its
calls of the session, the scroll position it remembers and the keyboard.

* `keyAction`, `charAction`, `imeAction`: what a message of the keyboard does.
* `perform`: doing it.
* `sendText`: `SendText`, which goes to the live edge where the remembered
  position is not there.
-/

namespace RataShell.Input

open Term (Alacritty HostCell Op RenderSnapshot Session)

variable {T R : Type}

/-- A call of `rata_session_send_text` or `rata_session_send_key`. -/
inductive Sent where
  | text (bytes : List UInt8)
  | key (vk : UInt16) (mods : UInt32)
deriving DecidableEq, Repr

/-- The fields of `TSCRataShell` and its painter that input reads, and what the
present message has sent. -/
structure Control (T : Type) where
  session : Option (Session T)
  active : Bool
  readOnly : Bool
  composing : Bool
  pendingEvent : Option RenderSnapshot
  scrollOffset : UInt32
  scrollMax : UInt32
  scrollDraggingThumb : Bool
  scrollThumbDragOffset : Int
  selectingDrag : Bool
  lastClickTime : UInt32
  lastClickX : Int
  lastClickY : Int
  consecutiveClicks : Nat
  autoScrollTimer : Bool
  autoScrollDir : Int
  autoScrollLastX : Int
  lastCells : List HostCell
  lastCols : UInt16
  lastRows : UInt16
  lastSearchPattern : String
  searchBar : Bool
  cellW : Int
  cellH : Int
  cols : Int
  rows : Int
  clientWidth : Int
  clientHeight : Int
  sent : List Sent

namespace Control

/-- `TSCRataShell.Create`, with the cells of the painter and the client area. -/
def create (cellW cellH clientWidth clientHeight : Int) : Control T where
  session := none
  active := false
  readOnly := false
  composing := false
  pendingEvent := none
  scrollOffset := 0
  scrollMax := 0
  scrollDraggingThumb := false
  scrollThumbDragOffset := 0
  selectingDrag := false
  lastClickTime := 0
  lastClickX := 0
  lastClickY := 0
  consecutiveClicks := 0
  autoScrollTimer := false
  autoScrollDir := 0
  autoScrollLastX := 0
  lastCells := []
  lastCols := 0
  lastRows := 0
  lastSearchPattern := ""
  searchBar := false
  cellW := cellW
  cellH := cellH
  cols := 0
  rows := 0
  clientWidth := clientWidth
  clientHeight := clientHeight
  sent := []

variable (A : Alacritty T R)

/-! ## Calls of the session -/

/-- A `Word`. -/
def word (n : Int) : UInt16 := UInt16.ofNat (n % 65536).toNat

/-- An operation of the session. It may give a frame to `RataRenderProc`, which
stores it. -/
def call (op : Op) (c : Control T) : Control T :=
  match c.session with
  | none => c
  | some s =>
      { c with
        session := some (s.call A op)
        pendingEvent := if op.renders then (s.call A op).frame else c.pendingEvent }

/-- `rata_session_send_text` of a session that is there. -/
def rataSendText (bytes : List UInt8) (c : Control T) : Control T :=
  { c with sent := c.sent ++ [.text bytes] }

/-- `rata_session_send_key`. -/
def rataSendKey (vk : UInt16) (mods : UInt32) (c : Control T) : Control T :=
  { c with
    session := c.session.map fun s => s.step A .sendKey
    sent := c.sent ++ [.key vk mods] }

/-- `ModeFlags`. -/
def modeFlags (c : Control T) : UInt32 :=
  match c.session with
  | none => 0
  | some s => s.host.modeFlags A

/-- `ViModeActive`. -/
def viModeActive (c : Control T) : Bool :=
  match c.session with
  | none => false
  | some s => s.host.viModeActive A

/-- `ToggleViMode`. -/
def toggleViMode (c : Control T) : Control T := c.call A .toggleViMode

/-- `ViMotion`. -/
def viMotion (kind : UInt8) (c : Control T) : Control T := c.call A (.viMotion kind)

/-- `SelectionStart`. -/
def selectionStart (col row : UInt16) (kind : UInt8) (c : Control T) : Control T :=
  c.call A (.selectionStart col row kind)

/-- `SelectionExtend`. -/
def selectionExtend (col row : UInt16) (c : Control T) : Control T :=
  c.call A (.selectionExtend col row)

/-- `SelectionClear`. -/
def selectionClear (c : Control T) : Control T := c.call A .selectionClear

/-- `SearchNext`. -/
def searchNext (pattern : String) (forward : Bool) (c : Control T) : Control T :=
  if pattern = "" then c else c.call A (.searchNext pattern forward)

/-- `SearchAgain`. -/
def searchAgain (forward : Bool) (c : Control T) : Control T :=
  c.searchNext A c.lastSearchPattern forward

/-- The terminal of the session. -/
def terminal (c : Control T) : Option T := c.session.map fun s => s.host.term

/-! ## The remembered scroll position -/

/-- `UpdateScrollInfo`. -/
def updateScrollInfo (c : Control T) : Control T :=
  match c.session with
  | none => c
  | some s =>
      { c with
        scrollOffset := UInt32.ofNat (s.host.displayOffset A)
        scrollMax := UInt32.ofNat (s.host.historySize A) }

/-- `ScrollByLines`. -/
def scrollByLines (lines : Int) (c : Control T) : Control T :=
  if c.session.isNone ∨ lines = 0 then c
  else (c.call A (.scroll (Int32.ofInt lines))).updateScrollInfo A

/-- `Scroll`. -/
def scroll (lines : Int32) (c : Control T) : Control T :=
  (c.call A (.scroll lines)).updateScrollInfo A

/-- `ScrollToTop`. -/
def scrollToTop (c : Control T) : Control T := (c.call A .scrollToTop).updateScrollInfo A

/-- `ScrollToBottom`. -/
def scrollToBottom (c : Control T) : Control T := (c.call A .scrollToBottom).updateScrollInfo A

/-- `ClearHistory`. -/
def clearHistory (c : Control T) : Control T := (c.call A .clearHistory).updateScrollInfo A

/-- `SoftReset`. -/
def softReset (c : Control T) : Control T := c.call A .resetState

/-- `HandleRenderMessage`, less the cursor. -/
def handleRenderMessage (c : Control T) : Control T :=
  match c.pendingEvent with
  | none => c
  | some ev =>
      { c with
        pendingEvent := none
        cols := ev.cols.toNat
        rows := ev.rows.toNat
        lastCols := ev.cols
        lastRows := ev.rows
        lastCells := ev.cells }.updateScrollInfo A

/-! ## Sending -/

/-- Input goes to the live edge and clears the selection. -/
def toLiveEdge (c : Control T) : Control T :=
  (if 0 < c.scrollOffset then c.call A .scrollToBottom else c).selectionClear A

/-- `SendText`. -/
def sendText (text : Text) (c : Control T) : Control T :=
  if c.session.isNone ∨ text = [] then c
  else
    let c := c.toLiveEdge A
    c.rataSendText (utf8Encode (wrapped (c.modeFlags A) text))

/-- `SendKey`. -/
def sendKey (vk : UInt16) (mods : UInt32) (c : Control T) : Control T :=
  if c.session.isNone then c else c.rataSendKey A vk mods

/-- `WMKeyDown` forwards a key. -/
def forwardKey (vk : UInt16) (mods : UInt32) (c : Control T) : Control T :=
  (c.toLiveEdge A).rataSendKey A vk mods

end Control

/-! ## Keys -/

/-- What a message of the keyboard does. -/
inductive KeyAction where
  | ignore
  | copySelection
  | showSearchDialog
  | searchAgain (forward : Bool)
  | toggleViMode
  | viMotion (kind : UInt8)
  | viScroll (lines : Int)
  | sendText (text : Text)
  | forward (vk : UInt16) (mods : UInt32)
deriving DecidableEq, Repr

def RATA_MOD_SHIFT : UInt32 := 0x01
def RATA_MOD_CTRL : UInt32 := 0x02

def VK_ESCAPE : UInt16 := 0x1B
def VK_SPACE : UInt16 := 0x20
def VK_PRIOR : UInt16 := 0x21
def VK_NEXT : UInt16 := 0x22
def VK_END : UInt16 := 0x23
def VK_HOME : UInt16 := 0x24
def VK_LEFT : UInt16 := 0x25
def VK_UP : UInt16 := 0x26
def VK_RIGHT : UInt16 := 0x27
def VK_DOWN : UInt16 := 0x28
def VK_F3 : UInt16 := 0x72

/-- The special keys that `WMKeyDown` forwards: backspace, tab, return, escape,
insert, delete, those of the cursor and F1 to F12. -/
def forwardedKeys : List UInt16 :=
  [0x08, 0x09, 0x0D, VK_ESCAPE, VK_PRIOR, VK_NEXT, VK_END, VK_HOME, VK_LEFT, VK_UP, VK_RIGHT,
   VK_DOWN, 0x2D, 0x2E, 0x70, 0x71, 0x72, 0x73, 0x74, 0x75, 0x76, 0x77, 0x78, 0x79, 0x7A, 0x7B]

/-- The keys of the vi mode in `WMKeyDown`. -/
def viKeys (rows : Int) : List (UInt16 × KeyAction) :=
  [(VK_ESCAPE, .toggleViMode), (VK_LEFT, .viMotion 2), (VK_RIGHT, .viMotion 3),
   (VK_UP, .viMotion 0), (VK_DOWN, .viMotion 1), (VK_HOME, .viMotion 4), (VK_END, .viMotion 5),
   (VK_PRIOR, .viScroll rows), (VK_NEXT, .viScroll (-rows))]

/-- The characters of the vi mode in `WMChar`. -/
def viChars : List (Char × KeyAction) :=
  [('h', .viMotion 2), ('j', .viMotion 1), ('k', .viMotion 0), ('l', .viMotion 3),
   ('0', .viMotion 4), ('^', .viMotion 6), ('$', .viMotion 5), ('w', .viMotion 11),
   ('b', .viMotion 10), ('e', .viMotion 13), ('W', .viMotion 15), ('B', .viMotion 14),
   ('E', .viMotion 17), ('H', .viMotion 7), ('M', .viMotion 8), ('L', .viMotion 9),
   ('\x7b', .viMotion 19), ('\x7d', .viMotion 20), ('%', .viMotion 18), ('y', .copySelection),
   ('i', .toggleViMode)]

namespace Control

variable (A : Alacritty T R)

/-- `WMKeyDown`, with the state of Shift and Ctrl and the text of the clipboard. -/
def keyAction (vk : UInt16) (mods : UInt32) (clipboard : Text) (c : Control T) : KeyAction :=
  let shift := mods &&& RATA_MOD_SHIFT ≠ 0
  let ctrl := mods &&& RATA_MOD_CTRL ≠ 0
  if c.readOnly ∨ c.session.isNone then .ignore
  else if c.composing then .ignore
  else if vk = 0x43 ∧ ctrl ∧ shift then .copySelection
  else if vk = 0x46 ∧ ctrl ∧ shift then .showSearchDialog
  else if vk = VK_F3 ∧ c.lastSearchPattern ≠ "" then .searchAgain (!decide shift)
  else if vk = VK_SPACE ∧ ctrl ∧ shift then .toggleViMode
  else if c.viModeActive A then ((viKeys c.rows).lookup vk).getD .ignore
  else if vk = 0x56 ∧ ctrl ∧ shift then .sendText clipboard
  else if vk ∈ forwardedKeys then .forward vk mods
  else if ctrl ∧ 0x41 ≤ vk ∧ vk ≤ 0x5A then .forward vk mods
  else .ignore

/-- `WMChar`. -/
def charAction (unit : UInt16) (c : Control T) : KeyAction :=
  if c.readOnly ∨ c.session.isNone then .ignore
  else if unit < 0x20 then .ignore
  else if c.viModeActive A then
    ((viChars.find? fun p => p.1.toNat = unit.toNat).map Prod.snd).getD .ignore
  else .sendText [unit]

/-- `WMImeComposition`, with the committed text if there is one. -/
def imeAction (result : Option Text) (c : Control T) : KeyAction :=
  match result with
  | none => .ignore
  | some text => if c.readOnly ∨ c.session.isNone then .ignore else .sendText text

/-- Does what a message of the keyboard asks for. -/
def perform (a : KeyAction) (c : Control T) : Control T :=
  match a with
  | .ignore | .copySelection => c
  | .showSearchDialog => { c with searchBar := true }
  | .searchAgain forward => c.searchAgain A forward
  | .toggleViMode => c.toggleViMode A
  | .viMotion kind => c.viMotion A kind
  | .viScroll lines => c.call A (.scroll (Int32.ofInt lines))
  | .sendText text => c.sendText A text
  | .forward vk mods => c.forwardKey A vk mods

/-- `WMKeyDown` and `WMSysKeyDown`. -/
def wmKeyDown (vk : UInt16) (mods : UInt32) (clipboard : Text) (c : Control T) : Control T :=
  c.perform A (c.keyAction A vk mods clipboard)

/-- `WMChar`. -/
def wmChar (unit : UInt16) (c : Control T) : Control T := c.perform A (c.charAction A unit)

/-- `WMImeComposition`. -/
def wmImeComposition (result : Option Text) (c : Control T) : Control T :=
  c.perform A (c.imeAction result)

/-! ## What calls leave alone -/

variable {A} {c : Control T}

/-- A part of the control that its calls of the session, and what these send, do not
reach. -/
def Aside {β : Type} (part : Control T → β) : Prop :=
  ∀ (c : Control T) (session : Option (Session T)) (pendingEvent : Option RenderSnapshot)
    (sent : List Sent),
    part { c with session := session, pendingEvent := pendingEvent, sent := sent } = part c

section Aside

variable {β : Type} {part : Control T → β}

theorem Aside.call (h : Aside part) (op : Op) : part (c.call A op) = part c := by
  unfold Control.call
  split
  · rfl
  · exact h c _ _ c.sent

theorem Aside.toLiveEdge (h : Aside part) : part (c.toLiveEdge A) = part c := by
  rw [Control.toLiveEdge, selectionClear, h.call]
  split
  · exact h.call _
  · rfl

theorem Aside.sendText (h : Aside part) (text : Text) : part (c.sendText A text) = part c := by
  unfold Control.sendText
  split
  · rfl
  · exact (h (c.toLiveEdge A) _ _ _).trans h.toLiveEdge

theorem Aside.forwardKey (h : Aside part) (vk : UInt16) (mods : UInt32) :
    part (c.forwardKey A vk mods) = part c :=
  (h (c.toLiveEdge A) _ _ _).trans h.toLiveEdge

end Aside

@[simp] theorem call_sent (op : Op) : (c.call A op).sent = c.sent := by
  unfold call
  split <;> rfl

@[simp] theorem call_scrollOffset (op : Op) : (c.call A op).scrollOffset = c.scrollOffset :=
  Aside.call (fun _ _ _ _ => rfl) op

@[simp] theorem call_session (op : Op) :
    (c.call A op).session = c.session.map fun s => s.call A op := by
  unfold call
  cases hsession : c.session <;> simp [hsession]

theorem terminal_call (op : Op) :
    (c.call A op).terminal = c.session.map fun s => (op.host A s.host).term := by
  simp only [terminal, call_session, Option.map_map, Function.comp_def, Session.call_term]

@[simp] theorem updateScrollInfo_sent : (c.updateScrollInfo A).sent = c.sent := by
  unfold updateScrollInfo
  split <;> rfl

/-- Where input leaves the terminal. -/
theorem terminal_toLiveEdge :
    (c.toLiveEdge A).terminal = c.terminal.map fun t =>
      A.selectionClear (if 0 < c.scrollOffset then A.scrollDisplay .Bottom t else t) := by
  unfold toLiveEdge selectionClear
  rw [terminal_call]
  split
  · rw [call_session]
    simp only [terminal, Option.map_map, Function.comp_def]
    refine congrArg (fun f => c.session.map f) (funext fun s => ?_)
    exact congrArg A.selectionClear (Session.call_term .scrollToBottom s)
  · simp only [terminal, Option.map_map, Function.comp_def]
    rfl

@[simp] theorem toLiveEdge_sent : (c.toLiveEdge A).sent = c.sent := by
  unfold toLiveEdge selectionClear
  split <;> simp

@[simp] theorem toLiveEdge_session_isNone :
    (c.toLiveEdge A).session.isNone = c.session.isNone := by
  unfold toLiveEdge selectionClear
  split <;> simp

/-- The modes are those of the terminal. -/
theorem modeFlags_congr {c' : Control T} (h : c'.terminal.map A.mode = c.terminal.map A.mode) :
    c'.modeFlags A = c.modeFlags A := by
  unfold modeFlags
  simp only [terminal] at h
  cases hsession : c.session <;> cases hsession' : c'.session <;> simp_all [Term.TermHost.modeFlags]

end Control

end RataShell.Input
