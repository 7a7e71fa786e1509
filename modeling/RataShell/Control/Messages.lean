import RataShell.Control.Mouse

/-!
# Messages of the control

The control as a machine: output of the shell, window messages and calls of its
methods, in any order.

* `step`: one of them.
-/

namespace RataShell.Input

open Term (Alacritty Op Session)

variable {T R : Type}

/-- Output of the shell, a window message, a timer, an event of the search bar or a
call of a method. -/
inductive Label where
  | output (chunks : List (List UInt8))
  | keyDown (vk : UInt16) (mods : UInt32) (clipboard : Text)
  | sysKeyDown (vk : UInt16) (mods : UInt32) (clipboard : Text)
  | char (unit : UInt16)
  | imeChar
  | imeStartComposition
  | imeComposition (result : Option Text)
  | imeEndComposition
  | mouseDown (button : MouseButton) (shift : ShiftState) (ax ay : Int) (now : UInt32)
      (doubleClick : Int)
  | mouseMove (shift : ShiftState) (ax ay : Int)
  | mouseUp (button : MouseButton) (shift : ShiftState) (ax ay : Int)
  | mouseWheel (shift : ShiftState) (delta ax ay : Int)
  | wmRataRender
  | wmRataExit
  | wmSize (width height : Int)
  | fontChanged (cellW cellH : Int)
  | autoScrollTick
  | searchEditChange (pattern : String)
  | searchBarAgain (forward : Bool)
  | hideSearchBar
  | start (scrollback : UInt32)
  | stop
  | setReadOnly (value : Bool)
  | sendText (text : Text)
  | sendKey (vk : UInt16) (mods : UInt32)
  | method (op : Op)
deriving DecidableEq, Repr

namespace Control

variable (A : Alacritty T R)

/-! ## The window -/

/-- `CalcCols`. -/
def calcCols (c : Control T) : Int := max 1 ((c.clientWidth - 12).tdiv c.cellW)

/-- `CalcRows`. -/
def calcRows (c : Control T) : Int := max 1 (c.clientHeight.tdiv c.cellH)

/-- `ApplyResize`. -/
def applyResize (c : Control T) : Control T :=
  { c with cols := c.calcCols, rows := c.calcRows }.call A
    (.resize (word c.calcCols) (word c.calcRows))

/-- `rata_session_create` and `rata_session_set_callbacks`, as `Start` calls them. -/
def createSession (scrollback : UInt32) (c : Control T) : Session T :=
  (Session.new A (max (word c.calcCols) 1) (max (word c.calcRows) 1)
    (if scrollback = 0 then 10000 else scrollback.toNat)).step A (.setCallbacks true)

/-- `Start`. -/
def start (scrollback : UInt32) (c : Control T) : Control T :=
  if c.active then c
  else
    { c with
      session := some (c.createSession A scrollback)
      cols := c.calcCols
      rows := c.calcRows
      active := true }

/-- `Stop`. -/
def stop (c : Control T) : Control T := { c with session := none, active := false }

/-! ## Steps -/

/-- The pump handles a batch of output. -/
def output (chunks : List (List UInt8)) (c : Control T) : Control T :=
  match c.session with
  | none => c
  | some s =>
      { c with
        session := some (s.step A (.output chunks))
        pendingEvent := (s.step A (.output chunks)).frame }

/-- `DoSearchEditChange`. -/
def searchEditChange (pattern : String) (c : Control T) : Control T :=
  let c := { c with lastSearchPattern := pattern }
  if pattern = "" then c else c.searchAgain A true

/-- The methods that call one operation of the session. -/
def method (op : Op) (c : Control T) : Option (Control T) :=
  match op with
  | .resize _ _ => none
  | .scroll lines => some (c.scroll A lines)
  | .scrollToTop => some (c.scrollToTop A)
  | .scrollToBottom => some (c.scrollToBottom A)
  | .clearHistory => some (c.clearHistory A)
  | .resetState => some (c.softReset A)
  | .selectionStart col row kind => some (c.selectionStart A col row kind)
  | .selectionExtend col row => some (c.selectionExtend A col row)
  | .selectionClear => some (c.selectionClear A)
  | .toggleViMode => some (c.toggleViMode A)
  | .viMotion kind => some (c.viMotion A kind)
  | .searchNext pattern forward => some (c.searchNext A pattern forward)

/-- What is done at a message, when there can be such a one. -/
def handle (a : Label) (c : Control T) : Option (Control T) :=
  match a with
  | .output chunks => if c.session.isSome then some (c.output A chunks) else none
  | .keyDown vk mods clipboard | .sysKeyDown vk mods clipboard =>
      some (c.wmKeyDown A vk mods clipboard)
  | .char unit => some (c.wmChar A unit)
  | .imeChar => some c
  | .imeStartComposition => some { c with composing := true }
  | .imeComposition result => some (c.wmImeComposition A result)
  | .imeEndComposition => some { c with composing := false }
  | .mouseDown button shift ax ay now doubleClick =>
      some (c.mouseDown A button shift ax ay now doubleClick)
  | .mouseMove shift ax ay => some (c.mouseMove A shift ax ay)
  | .mouseUp button shift ax ay => some (c.mouseUp A button shift ax ay)
  | .mouseWheel shift delta ax ay => some (c.doMouseWheel A shift delta ax ay)
  | .wmRataRender => some (c.handleRenderMessage A)
  | .wmRataExit => some { c with active := false }
  | .wmSize width height =>
      some ({ c with clientWidth := width, clientHeight := height }.applyResize A)
  | .fontChanged cellW cellH => some ({ c with cellW := cellW, cellH := cellH }.applyResize A)
  | .autoScrollTick => if c.autoScrollTimer then some (c.doAutoScrollTick A) else none
  | .searchEditChange pattern => if c.searchBar then some (c.searchEditChange A pattern) else none
  | .searchBarAgain forward => if c.searchBar then some (c.searchAgain A forward) else none
  | .hideSearchBar => some { c with searchBar := false }
  | .start scrollback => some (c.start A scrollback)
  | .stop => some c.stop
  | .setReadOnly value => some { c with readOnly := value }
  | .sendText text => some (c.sendText A text)
  | .sendKey vk mods => some (c.sendKey A vk mods)
  | .method op => c.method A op

/-- Nothing has been sent yet. -/
def clearSent (c : Control T) : Control T := { c with sent := [] }

/-- One step; `sent` is what it sends. -/
def step (a : Label) (c : Control T) : Option (Control T) := c.clearSent.handle A a

/-- The states of a control that has been created. -/
def Init (c : Control T) : Prop :=
  ∃ cellW cellH clientWidth clientHeight, c = create cellW cellH clientWidth clientHeight

end Control

end RataShell.Input
