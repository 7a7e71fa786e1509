import Mathlib.Data.List.Basic

/-!
# The state of a started session

The data of one `start` of a `Session`: the fields of the session, the
channels between its threads, and where each thread stands.

* **Threads**: the reader (`io.rs`), the pump and the child watcher
  (`Session::start`), the writer (`io.rs`), the tail of `start` itself and
  `Drop for Session`, each a type of program points with the locals that are
  live there.
* **`Arc<PtyHost>`**: its holders are the frames that own a clone; the pseudo
  console is closed once none is left (`State.closed`).
* **History**: what was sent, received, fed to the terminal, queued and
  dispatched, and the callbacks entered, so that properties of whole runs are
  properties of states.

The content `τ` of the terminal (`TermHost` without its event queue) is a
parameter; `TermHost::advance` is one of the step function.
-/

namespace RataShell.Session

/-! ## Messages, events and callbacks -/

/-- `io.rs`, `IoEvent`. -/
inductive IoEvent where
  | bytes (buf : List UInt8)
  | eof
deriving DecidableEq, Repr

/-- The bytes a message brings. -/
def IoEvent.chunk : IoEvent → Option (List UInt8)
  | .bytes buf => some buf
  | .eof => none

/-- The alacritty events that the pump acts on; `other` is the `_ => {}` arm. -/
inductive Event where
  | title (title : String)
  | resetTitle
  | bell
  | clipboardStore (text : String)
  | ptyWrite (text : String)
  | other
deriving DecidableEq, Repr

/-- Which of the five host callbacks are registered. -/
structure Callbacks where
  on_render : Bool
  on_exit : Bool
  on_bell : Bool
  on_title : Bool
  on_clipboard : Bool
deriving DecidableEq, Repr

/-- `Callbacks::default`: none. -/
def Callbacks.default : Callbacks := ⟨false, false, false, false, false⟩

/-- A host callback with its argument. -/
inductive HostCall (τ : Type) where
  | render (snap : τ)
  | exit (code : Int32)
  | bell
  | title (title : String)
  | clipboard (text : String)
deriving DecidableEq, Repr

variable {τ : Type}

/-- `callbacks.lock().on_….clone()` is `Some`. -/
def Callbacks.has (cbs : Callbacks) : HostCall τ → Bool
  | .render _ => cbs.on_render
  | .exit _ => cbs.on_exit
  | .bell => cbs.on_bell
  | .title _ => cbs.on_title
  | .clipboard _ => cbs.on_clipboard

@[simp] theorem Callbacks.default_has (c : HostCall τ) : Callbacks.default.has c = false := by
  cases c <;> rfl

/-- A call of `on_exit`. -/
def HostCall.isExit : HostCall τ → Bool
  | .exit _ => true
  | _ => false

/-- The callback an event is for, with its argument. -/
def Event.hostCall : Event → Option (HostCall τ)
  | .title t => some (.title t)
  | .resetTitle => some (.title "")
  | .bell => some .bell
  | .clipboardStore text => some (.clipboard text)
  | .ptyWrite _ => none
  | .other => none

/-- No event is for `on_exit`. -/
theorem Event.hostCall_isExit {e : Event} {c : HostCall τ} (h : e.hostCall = some c) :
    c.isExit = false := by
  cases e <;> simp [Event.hostCall] at h <;> subst h <;> rfl

/-- The bytes an event writes back to the PTY. -/
def Event.reply : Event → Option (List UInt8)
  | .ptyWrite text => some text.toUTF8.toList
  | _ => none

/-! ## Program points -/

/-- The tail of `Session::start`, from the spawned reader and writer on. The
watcher, reader, writer and pump handles are stored in one step: only `Drop`
and `send_bytes` read them. -/
inductive Start where
  | storeAlive
  | spawnPump
  | storePty
  | spawnWatcher
  | storeHandles
  | returned
deriving DecidableEq, Repr

/-- `ReaderThread::spawn`, the read loop. -/
inductive Reader where
  | readFile
  | send (ev : IoEvent)
  | done
deriving DecidableEq, Repr

/-- Where the pump goes on after a host callback. -/
inductive Resume where
  | dispatch (events : List Event) (saw_eof : Bool)
  | rendered (saw_eof : Bool)
  | finalRendered
  | exited
deriving DecidableEq, Repr

/-- The pump thread of `Session::start`. `call` holds a callback cloned from
the table and not yet entered; `inCall` is inside it. -/
inductive Pump (τ : Type) where
  | unspawned
  | recv
  | advance (buf : List UInt8)
  | tryRecv
  | advanceMore (more : List UInt8)
  | drain (saw_eof : Bool)
  | dispatch (events : List Event) (saw_eof : Bool)
  | snapshot (saw_eof : Bool)
  | render (snap : τ) (saw_eof : Bool)
  | eofSnapshot
  | eofRender (snap : τ)
  | exitCode
  | storeCode (code : Int32)
  | swapAlive (code : Int32)
  | notifyExit (code : Int32)
  | call (c : HostCall τ) (k : Resume)
  | inCall (k : Resume)
  | done
deriving DecidableEq, Repr

/-- The watcher thread of `Session::start`; `nap k` is before the alive test
of round `k` of the five sleeps. -/
inductive Watcher where
  | unspawned
  | check
  | poll
  | storeCode (code : Int32)
  | swapAlive (code : Int32)
  | notifyExit (code : Int32)
  | call (code : Int32)
  | inCall
  | nap (k : Nat)
  | done
deriving DecidableEq, Repr

/-- `WriterThread::spawn`, the write loop. -/
inductive Writer where
  | recv
  | writeFile (buf : List UInt8)
  | done
deriving DecidableEq, Repr

/-- `Drop for Session`, in the order of its statements. -/
inductive Drop where
  | notStarted
  | storeAlive
  | clearCallbacks
  | terminate
  | trySendEof
  | sendSentinel
  | joinWriter
  | takePty
  | joinPump
  | joinWatcher
  | joinReader
  | returned
deriving DecidableEq, Repr

/-- The thread that runs `Drop`: one of the host's own, or the pump or the
watcher inside a callback. -/
inductive Dropper where
  | host
  | pump
  | watcher
deriving DecidableEq, Repr

/-! ## The state -/

/-- The capacity of the reader's channel (`bounded(64)`). -/
def channelCap : Nat := 64

/-- One start of a session. -/
structure State (τ : Type) where
  /-- `Session.alive`, `exit_code`, `callbacks`. -/
  alive : Bool
  exit_code : Int32
  callbacks : Callbacks
  /-- `Session.term`: its content, `current_title` and event queue. -/
  term : τ
  current_title : String
  queue : List Event
  /-- `Session.pty` is `Some`; `Session.writer` and the other handles are. -/
  pty : Bool
  handles : Bool
  /-- The reader's and the writer's channel. -/
  chan : List IoEvent
  wchan : List (List UInt8)
  /-- The threads. -/
  start : Start
  reader : Reader
  pump : Pump τ
  watcher : Watcher
  writer : Writer
  drop : Drop
  dropper : Option Dropper
  /-- The child: its exit status once its handle is signalled, and whether
  `TerminateProcess` was called on it. -/
  child : Option UInt32
  killed : Bool
  /-- The output pipe: bytes not yet read, and an end of file that comes
  before the pseudo console is closed. -/
  unread : List UInt8
  outputClosed : Bool
  /-- History: messages that entered and left the channel, bytes given to
  `advance`, events queued by it and dispatched, replies, callbacks entered,
  and buffers given to `WriteFile`. -/
  sent : List IoEvent
  received : List IoEvent
  fed : List UInt8
  queued : List Event
  dispatched : List Event
  replies : List (List UInt8)
  calls : List (HostCall τ)
  written : List (List UInt8)

/-! ## Derived facts of a state -/

/-- The locals of `start` own a clone of the `Arc<PtyHost>`: `pty` until it is
stored, `pty_watch` until the watcher is spawned. -/
def Start.holdsPty : Start → Bool
  | .storeAlive | .spawnPump | .storePty | .spawnWatcher => true
  | .storeHandles | .returned => false

/-- The pump's closure owns `pty_arc` until the thread ends. -/
def Pump.holdsPty : Pump τ → Bool
  | .unspawned | .done => false
  | _ => true

/-- The watcher's closure owns `pty_w` until the thread ends. -/
def Watcher.holdsPty : Watcher → Bool
  | .unspawned | .done => false
  | _ => true

/-- The last `Arc<PtyHost>` is gone: `ClosePseudoConsole` has run. -/
def State.closed (s : State τ) : Bool :=
  !s.start.holdsPty && !s.pty && !s.pump.holdsPty && !s.watcher.holdsPty

/-- `ReadFile` finds the pipe empty and broken. -/
def State.atEof (s : State τ) : Bool :=
  s.unread.isEmpty && (s.closed || s.outputClosed)

/-- `PtyHost::try_exit_code`: the child's code once its handle is signalled. -/
def State.tryExitCode (s : State τ) : Option Int32 := s.child.map UInt32.toInt32

/-- Every sender of the reader's channel is dropped: the reader's own and that
of `Session.reader`. -/
def State.sendersGone (s : State τ) : Bool := s.reader == .done && s.drop == .returned

/-- Every receiver of the reader's channel is dropped: the pump's and that of
`Session.reader`. -/
def State.receiversGone (s : State τ) : Bool :=
  (match s.pump with | .done => true | _ => false) && s.drop == .returned

/-- Before `start` stores `alive`: reader and writer are spawned and nothing
was read. The terminal, its title, the callbacks and the cached exit code are
what the host and an earlier run left. -/
def init (term : τ) (title : String) (cbs : Callbacks) (code : Int32) : State τ where
  alive := false
  exit_code := code
  callbacks := cbs
  term := term
  current_title := title
  queue := []
  pty := false
  handles := false
  chan := []
  wchan := []
  start := .storeAlive
  reader := .readFile
  pump := .unspawned
  watcher := .unspawned
  writer := .recv
  drop := .notStarted
  dropper := none
  child := none
  killed := false
  unread := []
  outputClosed := false
  sent := []
  received := []
  fed := []
  queued := []
  dispatched := []
  replies := []
  calls := []
  written := []

/-- The initial states. -/
def Init (s : State τ) : Prop := ∃ term title cbs code, s = init term title cbs code

theorem init_Init (term : τ) (title : String) (cbs : Callbacks) (code : Int32) :
    Init (init term title cbs code) :=
  ⟨term, title, cbs, code, rfl⟩

end RataShell.Session
