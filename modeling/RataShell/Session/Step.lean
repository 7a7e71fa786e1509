import RataShell.Lib.Machine
import RataShell.Session.State

/-!
# The steps of a started session

One label for each thread, each event of the child and its output pipe, and
each host call. A thread's step is one access to shared state: a receive or a
send, a section under one lock, an atomic load, store or swap, the entry into
a callback or the return from it. A blocked thread has no step.

Host calls are steps of their own and end with the start of `Drop`, which
owns the session from then on.
-/

namespace RataShell.Session

variable {τ : Type}

/-- The steps of the session's threads, of the child and of the host. -/
inductive Label where
  | start
  | reader (n : Nat)
  | pump
  | watcher
  | writer
  | drop
  | beginDrop (on : Dropper)
  | shellWrite (bytes : List UInt8)
  | closeOutput
  | childExit (code : UInt32)
  | childKilled
  | terminate
  | sendBytes (bytes : List UInt8)
  | setCallbacks (cbs : Callbacks)
  | setClipboardCallback (cb : Bool)
deriving DecidableEq, Repr

/-! ## Shared operations -/

/-- The writer's channel after a send; it fails, unnoticed, once the writer
has ended. -/
def State.sendWriter (s : State τ) (buf : List UInt8) : List (List UInt8) :=
  if s.writer = .done then s.wchan else s.wchan ++ [buf]

/-- `TermHost::advance` under the term lock; the events that parsing queues go
to the sink. -/
def State.advance (advance : τ → List UInt8 → τ × List Event) (s : State τ)
    (buf : List UInt8) : State τ :=
  { s with
    term := (advance s.term buf).1
    queue := s.queue ++ (advance s.term buf).2
    queued := s.queued ++ (advance s.term buf).2
    fed := s.fed ++ buf }

/-- How `drain_events` updates the title for one event. -/
def titleAfter (title : String) : Event → String
  | .title t => t
  | .resetTitle => ""
  | _ => title

/-! ## The threads -/

/-- The tail of `Session::start`. -/
def startStep (s : State τ) : Option (State τ) :=
  match s.start with
  | .storeAlive => some { s with alive := true, start := .spawnPump }
  | .spawnPump => some { s with pump := .recv, start := .storePty }
  | .storePty => some { s with pty := true, start := .spawnWatcher }
  | .spawnWatcher => some { s with watcher := .check, start := .storeHandles }
  | .storeHandles => some { s with handles := true, start := .returned }
  | .returned => none

/-- The read loop. `ReadFile` returns `n` of the unread bytes, at most the
size of its buffer, or fails at the end of file; a send blocks while the
channel is full. -/
def readerStep (n : Nat) (s : State τ) : Option (State τ) :=
  match s.reader with
  | .readFile =>
      -- an error of `ReadFile` and a read of 0 bytes are one case: `send(Eof)`
      if n = 0 then
        if s.atEof then some { s with reader := .send .eof } else none
      else if n ≤ 8192 ∧ n ≤ s.unread.length then
        some { s with reader := .send (.bytes (s.unread.take n)), unread := s.unread.drop n }
      else none
  | .send ev =>
      -- `send` fails once nobody can receive
      if s.receiversGone then some { s with reader := .done }
      else if s.chan.length < channelCap then
        some { s with
          chan := s.chan ++ [ev], sent := s.sent ++ [ev]
          reader := match ev with | .bytes _ => .readFile | .eof => .done }
      else none
  | .done => none

/-- Where the pump goes on after a callback. -/
def Resume.next : Resume → Pump τ
  | .dispatch events saw_eof => .dispatch events saw_eof
  | .rendered true => .eofSnapshot
  | .rendered false => .recv
  | .finalRendered => .exitCode
  | .exited => .done

/-- Clone a callback from the table; without one go on. -/
def State.lookup (s : State τ) (c : HostCall τ) (k : Resume) : Pump τ :=
  if s.callbacks.has c then .call c k else k.next

/-- One event of the `for ev in events` loop. -/
def dispatchStep (s : State τ) (e : Event) (k : Resume) : State τ :=
  match e.hostCall, e.reply with
  | some c, _ => { s with pump := s.lookup c k, dispatched := s.dispatched ++ [e] }
  | none, some buf =>
      { s with
        pump := k.next, dispatched := s.dispatched ++ [e], wchan := s.sendWriter buf,
        replies := s.replies ++ [buf] }
  | none, none => { s with pump := k.next, dispatched := s.dispatched ++ [e] }

/-- The pump. -/
def pumpStep (advance : τ → List UInt8 → τ × List Event) (s : State τ) : Option (State τ) :=
  match s.pump with
  | .unspawned => none
  | .recv =>
      match s.chan with
      | .bytes buf :: chan =>
          some { s with
            chan := chan, received := s.received ++ [.bytes buf], pump := .advance buf }
      | .eof :: chan =>
          some { s with chan := chan, received := s.received ++ [.eof], pump := .eofSnapshot }
      -- `Err(_) => break`, with no exit reported
      | [] => if s.sendersGone then some { s with pump := .done } else none
  | .advance buf => some { s.advance advance buf with pump := .tryRecv }
  | .tryRecv =>
      match s.chan with
      | .bytes more :: chan =>
          some { s with
            chan := chan, received := s.received ++ [.bytes more], pump := .advanceMore more }
      | .eof :: chan =>
          some { s with chan := chan, received := s.received ++ [.eof], pump := .drain true }
      | [] => some { s with pump := .drain false }
  | .advanceMore more => some { s.advance advance more with pump := .tryRecv }
  | .drain saw_eof =>
      some { s with
        queue := []
        current_title := s.queue.foldl titleAfter s.current_title
        pump := .dispatch s.queue saw_eof }
  | .dispatch events saw_eof =>
      match events with
      | [] => some { s with pump := .snapshot saw_eof }
      | e :: events => some (dispatchStep s e (.dispatch events saw_eof))
  | .snapshot saw_eof => some { s with pump := .render s.term saw_eof }
  | .render snap saw_eof => some { s with pump := s.lookup (.render snap) (.rendered saw_eof) }
  | .eofSnapshot => some { s with pump := .eofRender s.term }
  | .eofRender snap => some { s with pump := s.lookup (.render snap) .finalRendered }
  -- `try_exit_code().unwrap_or(0)`
  | .exitCode => some { s with pump := .storeCode (s.tryExitCode.getD 0) }
  | .storeCode code => some { s with exit_code := code, pump := .swapAlive code }
  | .swapAlive code =>
      some { s with alive := false, pump := if s.alive then .notifyExit code else .done }
  | .notifyExit code => some { s with pump := s.lookup (.exit code) .exited }
  | .call c k => some { s with calls := s.calls ++ [c], pump := .inCall k }
  -- a `Drop` inside the callback returns before the callback does
  | .inCall k =>
      if s.dropper = some .pump ∧ s.drop ≠ .returned then none
      else some { s with pump := k.next }
  | .done => none

/-- The watcher. -/
def watcherStep (s : State τ) : Option (State τ) :=
  match s.watcher with
  | .unspawned => none
  | .check => some { s with watcher := if s.alive then .poll else .done }
  | .poll =>
      match s.tryExitCode with
      | some code => some { s with watcher := .storeCode code }
      | none => some { s with watcher := .nap 0 }
  | .storeCode code => some { s with exit_code := code, watcher := .swapAlive code }
  | .swapAlive code =>
      some { s with alive := false, watcher := if s.alive then .notifyExit code else .done }
  | .notifyExit code =>
      some { s with watcher := if s.callbacks.on_exit then .call code else .done }
  | .call code => some { s with calls := s.calls ++ [.exit code], watcher := .inCall }
  | .inCall =>
      if s.dropper = some .watcher ∧ s.drop ≠ .returned then none
      else some { s with watcher := .done }
  | .nap k =>
      if s.alive then some { s with watcher := if k < 4 then .nap (k + 1) else .check }
      else some { s with watcher := .done }
  | .done => none

/-- The write loop; the empty buffer is the sentinel that ends it. -/
def writerStep (s : State τ) : Option (State τ) :=
  match s.writer with
  | .recv =>
      match s.wchan with
      | [] => none
      | [] :: wchan => some { s with wchan := wchan, writer := .done }
      | (b :: buf) :: wchan => some { s with wchan := wchan, writer := .writeFile (b :: buf) }
  | .writeFile buf => some { s with written := s.written ++ [buf], writer := .recv }
  | .done => none

/-- `Drop for Session`: a join waits for the end of the thread, except that
`Drop` does not join the thread it runs on. -/
def dropStep (s : State τ) : Option (State τ) :=
  match s.drop with
  | .notStarted => none
  | .storeAlive => some { s with alive := false, drop := .clearCallbacks }
  | .clearCallbacks => some { s with callbacks := .default, drop := .terminate }
  | .terminate => some { s with killed := s.killed || s.pty, drop := .trySendEof }
  | .trySendEof =>
      -- the result of `try_send` is ignored
      if s.chan.length < channelCap then
        some { s with
          chan := s.chan ++ [.eof], sent := s.sent ++ [.eof], drop := .sendSentinel }
      else some { s with drop := .sendSentinel }
  | .sendSentinel => some { s with wchan := s.sendWriter [], drop := .joinWriter }
  | .joinWriter =>
      match s.writer with
      | .done => some { s with drop := .takePty }
      | _ => none
  | .takePty => some { s with pty := false, drop := .joinPump }
  | .joinPump =>
      if s.dropper = some .pump then some { s with drop := .joinWatcher }
      else
        match s.pump with
        | .done => some { s with drop := .joinWatcher }
        | _ => none
  | .joinWatcher =>
      if s.dropper = some .watcher then some { s with drop := .joinReader }
      else
        match s.watcher with
        | .done => some { s with drop := .joinReader }
        | _ => none
  | .joinReader =>
      match s.reader with
      | .done => some { s with drop := .returned }
      | _ => none
  | .returned => none

/-! ## The child and the host -/

/-- Where `Drop` may begin: on a host thread at any time, on the pump or the
watcher inside a callback. -/
def State.mayDropOn (s : State τ) : Dropper → Bool
  | .host => true
  | .pump => match s.pump with | .inCall _ => true | _ => false
  | .watcher => s.watcher == .inCall

/-- The host destroys the session, once `start` has returned. -/
def beginDropStep (on : Dropper) (s : State τ) : Option (State τ) :=
  if s.start = .returned ∧ s.drop = .notStarted ∧ s.mayDropOn on then
    some { s with drop := .storeAlive, dropper := some on }
  else none

/-- The shell, or the console that redraws for it, writes output. -/
def shellWriteStep (bytes : List UInt8) (s : State τ) : Option (State τ) :=
  if s.closed ∨ s.outputClosed then none else some { s with unread := s.unread ++ bytes }

/-- The child ends by itself. -/
def childExitStep (code : UInt32) (s : State τ) : Option (State τ) :=
  match s.child with
  | none => some { s with child := some code }
  | some _ => none

/-- `TerminateProcess` takes effect. -/
def childKilledStep (s : State τ) : Option (State τ) :=
  if s.killed then childExitStep 1 s else none

/-- A host call: possible until `Drop` begins. -/
def hostCall (f : State τ → State τ) (s : State τ) : Option (State τ) :=
  if s.drop = .notStarted then some (f s) else none

/-- `Session::terminate`. -/
def terminate (s : State τ) : State τ := { s with killed := s.killed || s.pty }

/-- `Session::send_bytes`: nothing for no bytes, an error before the writer is
stored. -/
def sendBytes (bytes : List UInt8) (s : State τ) : State τ :=
  if bytes.isEmpty then s
  else if s.handles then { s with wchan := s.sendWriter bytes }
  else s

/-- `Session::set_callbacks`: all but `on_clipboard`. -/
def setCallbacks (cbs : Callbacks) (s : State τ) : State τ :=
  { s with callbacks := { cbs with on_clipboard := s.callbacks.on_clipboard } }

/-- `Session::set_clipboard_callback`. -/
def setClipboardCallback (cb : Bool) (s : State τ) : State τ :=
  { s with callbacks := { s.callbacks with on_clipboard := cb } }

/-- One step of the session. -/
def step (advance : τ → List UInt8 → τ × List Event) (a : Label) (s : State τ) :
    Option (State τ) :=
  match a with
  | .start => startStep s
  | .reader n => readerStep n s
  | .pump => pumpStep advance s
  | .watcher => watcherStep s
  | .writer => writerStep s
  | .drop => dropStep s
  | .beginDrop on => beginDropStep on s
  | .shellWrite bytes => shellWriteStep bytes s
  | .closeOutput => some { s with outputClosed := true }
  | .childExit code => childExitStep code s
  | .childKilled => childKilledStep s
  | .terminate => hostCall terminate s
  | .sendBytes bytes => hostCall (sendBytes bytes) s
  | .setCallbacks cbs => hostCall (setCallbacks cbs) s
  | .setClipboardCallback cb => hostCall (setClipboardCallback cb) s

/-- The session as a machine. -/
def machine (advance : τ → List UInt8 → τ × List Event) : Lts.Machine (State τ) Label where
  Init := Init
  step := step advance

/-- A terminal that ignores its input, for concrete runs. -/
def blank : Unit → List UInt8 → Unit × List Event := fun _ _ => ((), [])

end RataShell.Session
