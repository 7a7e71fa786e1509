import RataShell.Session.Step

/-!
# The moves of the threads

Every step of the session, with what it needs and does: one inductive type for
each thread (`StartMove`, `PumpMove`, `WatcherMove`, `ReaderMove`,
`WriterMove`, `DropMove`) and one for the child and the host (`OutsideMove`).
Later modules split cases on these and do not unfold the step functions.

* **Frames**: for each thread the fields it writes; everything else is
  unchanged (`pumpStep_frame` and its siblings).
* **The reader's channel**: what the pump does to it (`pumpStep_chan`).
-/

namespace RataShell.Session

variable {τ : Type} {advance : τ → List UInt8 → τ × List Event} {s s' : State τ}

/-! ## The session's threads -/

/-- The moves of the tail of `start`. -/
inductive StartMove (s : State τ) : State τ → Prop
  | storeAlive (hst : s.start = .storeAlive) :
      StartMove s { s with alive := true, start := .spawnPump }
  | spawnPump (hst : s.start = .spawnPump) :
      StartMove s { s with pump := .recv, start := .storePty }
  | storePty (hst : s.start = .storePty) :
      StartMove s { s with pty := true, start := .spawnWatcher }
  | spawnWatcher (hst : s.start = .spawnWatcher) :
      StartMove s { s with watcher := .check, start := .storeHandles }
  | storeHandles (hst : s.start = .storeHandles) :
      StartMove s { s with handles := true, start := .returned }

theorem startStep_move (h : startStep s = some s') : StartMove s s' := by
  unfold startStep at h
  split at h <;> cases h
  · exact .storeAlive ‹_›
  · exact .spawnPump ‹_›
  · exact .storePty ‹_›
  · exact .spawnWatcher ‹_›
  · exact .storeHandles ‹_›

/-- The moves of the pump. -/
inductive PumpMove (advance : τ → List UInt8 → τ × List Event) (s : State τ) : State τ → Prop
  | recvBytes {buf chan} (hp : s.pump = .recv) (hc : s.chan = .bytes buf :: chan) :
      PumpMove advance s { s with
        chan := chan, received := s.received ++ [.bytes buf], pump := .advance buf }
  | recvEof {chan} (hp : s.pump = .recv) (hc : s.chan = .eof :: chan) :
      PumpMove advance s { s with
        chan := chan, received := s.received ++ [.eof], pump := .eofSnapshot }
  | disconnected (hp : s.pump = .recv) (hc : s.chan = []) (hgone : s.sendersGone = true) :
      PumpMove advance s { s with pump := .done }
  | advance {buf} (hp : s.pump = .advance buf ∨ s.pump = .advanceMore buf) :
      PumpMove advance s { s.advance advance buf with pump := .tryRecv }
  | tryBytes {more chan} (hp : s.pump = .tryRecv) (hc : s.chan = .bytes more :: chan) :
      PumpMove advance s { s with
        chan := chan, received := s.received ++ [.bytes more], pump := .advanceMore more }
  | tryEof {chan} (hp : s.pump = .tryRecv) (hc : s.chan = .eof :: chan) :
      PumpMove advance s { s with
        chan := chan, received := s.received ++ [.eof], pump := .drain true }
  | tryEmpty (hp : s.pump = .tryRecv) (hc : s.chan = []) :
      PumpMove advance s { s with pump := .drain false }
  | drain {saw_eof} (hp : s.pump = .drain saw_eof) :
      PumpMove advance s { s with
        queue := [], current_title := s.queue.foldl titleAfter s.current_title,
        pump := .dispatch s.queue saw_eof }
  | dispatched {saw_eof} (hp : s.pump = .dispatch [] saw_eof) :
      PumpMove advance s { s with pump := .snapshot saw_eof }
  | dispatchCall {e events saw_eof c} (hp : s.pump = .dispatch (e :: events) saw_eof)
      (he : e.hostCall = some c) :
      PumpMove advance s { s with
        pump := s.lookup c (.dispatch events saw_eof), dispatched := s.dispatched ++ [e] }
  | dispatchReply {e events saw_eof buf} (hp : s.pump = .dispatch (e :: events) saw_eof)
      (he : (e.hostCall : Option (HostCall τ)) = none) (hr : e.reply = some buf) :
      PumpMove advance s { s with
        pump := .dispatch events saw_eof, dispatched := s.dispatched ++ [e],
        wchan := s.sendWriter buf, replies := s.replies ++ [buf] }
  | dispatchOther {e events saw_eof} (hp : s.pump = .dispatch (e :: events) saw_eof)
      (he : (e.hostCall : Option (HostCall τ)) = none) (hr : e.reply = none) :
      PumpMove advance s { s with
        pump := .dispatch events saw_eof, dispatched := s.dispatched ++ [e] }
  | snapshot {saw_eof} (hp : s.pump = .snapshot saw_eof) :
      PumpMove advance s { s with pump := .render s.term saw_eof }
  | render {snap saw_eof} (hp : s.pump = .render snap saw_eof) :
      PumpMove advance s { s with pump := s.lookup (.render snap) (.rendered saw_eof) }
  | eofSnapshot (hp : s.pump = .eofSnapshot) :
      PumpMove advance s { s with pump := .eofRender s.term }
  | eofRender {snap} (hp : s.pump = .eofRender snap) :
      PumpMove advance s { s with pump := s.lookup (.render snap) .finalRendered }
  | exitCode (hp : s.pump = .exitCode) :
      PumpMove advance s { s with pump := .storeCode (s.tryExitCode.getD 0) }
  | storeCode {code} (hp : s.pump = .storeCode code) :
      PumpMove advance s { s with exit_code := code, pump := .swapAlive code }
  | swapWon {code} (hp : s.pump = .swapAlive code) (ha : s.alive = true) :
      PumpMove advance s { s with alive := false, pump := .notifyExit code }
  | swapLost {code} (hp : s.pump = .swapAlive code) (ha : s.alive = false) :
      PumpMove advance s { s with alive := false, pump := .done }
  | notifyExit {code} (hp : s.pump = .notifyExit code) :
      PumpMove advance s { s with pump := s.lookup (.exit code) .exited }
  | call {c k} (hp : s.pump = .call c k) :
      PumpMove advance s { s with calls := s.calls ++ [c], pump := .inCall k }
  | inCall {k} (hp : s.pump = .inCall k)
      (hfree : ¬ (s.dropper = some .pump ∧ s.drop ≠ .returned)) :
      PumpMove advance s { s with pump := k.next }

theorem pumpStep_move (h : pumpStep advance s = some s') : PumpMove advance s s' := by
  unfold pumpStep dispatchStep at h
  repeat' split at h
  all_goals cases h
  · exact .recvBytes ‹_› ‹_›
  · exact .recvEof ‹_› ‹_›
  · exact .disconnected ‹_› ‹_› ‹_›
  · exact .advance (.inl ‹_›)
  · exact .tryBytes ‹_› ‹_›
  · exact .tryEof ‹_› ‹_›
  · exact .tryEmpty ‹_› ‹_›
  · exact .advance (.inr ‹_›)
  · exact .drain ‹_›
  · exact .dispatched ‹_›
  · exact .dispatchCall ‹_› ‹_›
  · exact .dispatchReply ‹_› ‹_› ‹_›
  · exact .dispatchOther ‹_› ‹_› ‹_›
  · exact .snapshot ‹_›
  · exact .render ‹_›
  · exact .eofSnapshot ‹_›
  · exact .eofRender ‹_›
  · exact .exitCode ‹_›
  · exact .storeCode ‹_›
  · exact .swapWon ‹_› ‹_›
  · exact .swapLost ‹_› (by simpa using ‹¬ s.alive = true›)
  · exact .notifyExit ‹_›
  · exact .call ‹_›
  · exact .inCall ‹_› ‹_›

/-- The moves of the reader. -/
inductive ReaderMove (n : Nat) (s : State τ) : State τ → Prop
  | readEof (hr : s.reader = .readFile) (heof : s.atEof = true) :
      ReaderMove n s { s with reader := .send .eof }
  | readBytes (hr : s.reader = .readFile) (hpos : 0 < n) (hlen : n ≤ s.unread.length) :
      ReaderMove n s { s with
        reader := .send (.bytes (s.unread.take n)), unread := s.unread.drop n }
  | sendBytes {buf} (hr : s.reader = .send (.bytes buf)) (hroom : s.chan.length < channelCap) :
      ReaderMove n s { s with
        chan := s.chan ++ [.bytes buf], sent := s.sent ++ [.bytes buf], reader := .readFile }
  | sendEof (hr : s.reader = .send .eof) (hroom : s.chan.length < channelCap) :
      ReaderMove n s { s with
        chan := s.chan ++ [.eof], sent := s.sent ++ [.eof], reader := .done }
  | gone {ev} (hr : s.reader = .send ev) (hgone : s.receiversGone = true) :
      ReaderMove n s { s with reader := .done }

theorem readerStep_move {n : Nat} (h : readerStep n s = some s') : ReaderMove n s s' := by
  unfold readerStep at h
  repeat' split at h
  all_goals cases h
  · exact .readEof ‹_› ‹_›
  · rename_i hpos hlen
    exact .readBytes ‹_› (by omega) hlen.2
  · exact .gone ‹_› ‹_›
  · exact .sendBytes ‹_› ‹_›
  · exact .sendEof ‹_› ‹_›

/-- The moves of the watcher. -/
inductive WatcherMove (s : State τ) : State τ → Prop
  | checkUp (hw : s.watcher = .check) (ha : s.alive = true) :
      WatcherMove s { s with watcher := .poll }
  | checkDown (hw : s.watcher = .check) (ha : s.alive = false) :
      WatcherMove s { s with watcher := .done }
  | pollEnded {code} (hw : s.watcher = .poll) (hcode : s.tryExitCode = some code) :
      WatcherMove s { s with watcher := .storeCode code }
  | pollRunning (hw : s.watcher = .poll) (hcode : s.tryExitCode = none) :
      WatcherMove s { s with watcher := .nap 0 }
  | storeCode {code} (hw : s.watcher = .storeCode code) :
      WatcherMove s { s with exit_code := code, watcher := .swapAlive code }
  | swapWon {code} (hw : s.watcher = .swapAlive code) (ha : s.alive = true) :
      WatcherMove s { s with alive := false, watcher := .notifyExit code }
  | swapLost {code} (hw : s.watcher = .swapAlive code) (ha : s.alive = false) :
      WatcherMove s { s with alive := false, watcher := .done }
  | notifyExit {code} (hw : s.watcher = .notifyExit code) (hon : s.callbacks.on_exit = true) :
      WatcherMove s { s with watcher := .call code }
  | notifyNone {code} (hw : s.watcher = .notifyExit code) (hon : s.callbacks.on_exit = false) :
      WatcherMove s { s with watcher := .done }
  | call {code} (hw : s.watcher = .call code) :
      WatcherMove s { s with calls := s.calls ++ [.exit code], watcher := .inCall }
  | inCall (hw : s.watcher = .inCall)
      (hfree : ¬ (s.dropper = some .watcher ∧ s.drop ≠ .returned)) :
      WatcherMove s { s with watcher := .done }
  | nap {k} (hw : s.watcher = .nap k) (ha : s.alive = true) (hk : k < 4) :
      WatcherMove s { s with watcher := .nap (k + 1) }
  | napLast {k} (hw : s.watcher = .nap k) (ha : s.alive = true) (hk : ¬ k < 4) :
      WatcherMove s { s with watcher := .check }
  | napDown {k} (hw : s.watcher = .nap k) (ha : s.alive = false) :
      WatcherMove s { s with watcher := .done }

theorem watcherStep_move (h : watcherStep s = some s') : WatcherMove s s' := by
  have hdown : ¬ s.alive = true → s.alive = false := by simp
  unfold watcherStep at h
  repeat' split at h
  all_goals cases h
  · exact .checkUp ‹_› ‹_›
  · exact .checkDown ‹_› (hdown ‹_›)
  · exact .pollEnded ‹_› ‹_›
  · exact .pollRunning ‹_› ‹_›
  · exact .storeCode ‹_›
  · exact .swapWon ‹_› ‹_›
  · exact .swapLost ‹_› (hdown ‹_›)
  · exact .notifyExit ‹_› ‹_›
  · exact .notifyNone ‹_› (by simpa using ‹¬ s.callbacks.on_exit = true›)
  · exact .call ‹_›
  · exact .inCall ‹_› ‹_›
  · exact .nap ‹_› ‹_› ‹_›
  · exact .napLast ‹_› ‹_› ‹_›
  · exact .napDown ‹_› (hdown ‹_›)

/-- The moves of the writer. -/
inductive WriterMove (s : State τ) : State τ → Prop
  | recvSentinel {wchan} (hw : s.writer = .recv) (hc : s.wchan = [] :: wchan) :
      WriterMove s { s with wchan := wchan, writer := .done }
  | recvBytes {b buf wchan} (hw : s.writer = .recv) (hc : s.wchan = (b :: buf) :: wchan) :
      WriterMove s { s with wchan := wchan, writer := .writeFile (b :: buf) }
  | writeFile {buf} (hw : s.writer = .writeFile buf) :
      WriterMove s { s with written := s.written ++ [buf], writer := .recv }

theorem writerStep_move (h : writerStep s = some s') : WriterMove s s' := by
  unfold writerStep at h
  repeat' split at h
  all_goals cases h
  · exact .recvSentinel ‹_› ‹_›
  · exact .recvBytes ‹_› ‹_›
  · exact .writeFile ‹_›

/-- The moves of `Drop`. -/
inductive DropMove (s : State τ) : State τ → Prop
  | storeAlive (hd : s.drop = .storeAlive) :
      DropMove s { s with alive := false, drop := .clearCallbacks }
  | clearCallbacks (hd : s.drop = .clearCallbacks) :
      DropMove s { s with callbacks := .default, drop := .terminate }
  | terminate (hd : s.drop = .terminate) :
      DropMove s { s with killed := s.killed || s.pty, drop := .trySendEof }
  | sendEof (hd : s.drop = .trySendEof) (hroom : s.chan.length < channelCap) :
      DropMove s { s with
        chan := s.chan ++ [.eof], sent := s.sent ++ [.eof], drop := .sendSentinel }
  | lostEof (hd : s.drop = .trySendEof) (hfull : ¬ s.chan.length < channelCap) :
      DropMove s { s with drop := .sendSentinel }
  | sendSentinel (hd : s.drop = .sendSentinel) :
      DropMove s { s with wchan := s.sendWriter [], drop := .joinWriter }
  | joinWriter (hd : s.drop = .joinWriter) (hw : s.writer = .done) :
      DropMove s { s with drop := .takePty }
  | takePty (hd : s.drop = .takePty) :
      DropMove s { s with pty := false, drop := .joinPump }
  | joinPump (hd : s.drop = .joinPump) (hp : s.dropper ≠ some .pump → s.pump = .done) :
      DropMove s { s with drop := .joinWatcher }
  | joinWatcher (hd : s.drop = .joinWatcher)
      (hw : s.dropper ≠ some .watcher → s.watcher = .done) :
      DropMove s { s with drop := .joinReader }
  | joinReader (hd : s.drop = .joinReader) (hr : s.reader = .done) :
      DropMove s { s with drop := .returned }

theorem dropStep_move (h : dropStep s = some s') : DropMove s s' := by
  unfold dropStep at h
  repeat' split at h
  all_goals cases h
  · exact .storeAlive ‹_›
  · exact .clearCallbacks ‹_›
  · exact .terminate ‹_›
  · exact .sendEof ‹_› ‹_›
  · exact .lostEof ‹_› ‹_›
  · exact .sendSentinel ‹_›
  · exact .joinWriter ‹_› ‹_›
  · exact .takePty ‹_›
  · exact .joinPump ‹_› fun hne => absurd ‹_› hne
  · exact .joinPump ‹_› fun _ => ‹_›
  · exact .joinWatcher ‹_› fun hne => absurd ‹_› hne
  · exact .joinWatcher ‹_› fun _ => ‹_›
  · exact .joinReader ‹_› ‹_›

/-! ## The child and the host -/

/-- The labels of the child, the output pipe and the host's calls. -/
def Label.isOutside : Label → Bool
  | .shellWrite _ | .closeOutput | .childExit _ | .childKilled => true
  | .terminate | .sendBytes _ | .setCallbacks _ | .setClipboardCallback _ => true
  | _ => false

/-- The steps of these labels, with what each needs and does. -/
inductive OutsideMove (s : State τ) : Label → State τ → Prop
  | shellWrite {bytes} (hopen : ¬ (s.closed ∨ s.outputClosed)) :
      OutsideMove s (.shellWrite bytes) { s with unread := s.unread ++ bytes }
  | closeOutput : OutsideMove s .closeOutput { s with outputClosed := true }
  | childExit {code} (hchild : s.child = none) :
      OutsideMove s (.childExit code) { s with child := some code }
  | childKilled (hkilled : s.killed = true) (hchild : s.child = none) :
      OutsideMove s .childKilled { s with child := some 1 }
  | terminate (hd : s.drop = .notStarted) :
      OutsideMove s .terminate { s with killed := s.killed || s.pty }
  | sendBytes {bytes} (hd : s.drop = .notStarted) :
      OutsideMove s (.sendBytes bytes) (sendBytes bytes s)
  | setCallbacks {cbs} (hd : s.drop = .notStarted) :
      OutsideMove s (.setCallbacks cbs) (setCallbacks cbs s)
  | setClipboardCallback {cb} (hd : s.drop = .notStarted) :
      OutsideMove s (.setClipboardCallback cb) (setClipboardCallback cb s)

theorem childExitStep_eq {code : UInt32} (h : childExitStep code s = some s') :
    s.child = none ∧ s' = { s with child := some code } := by
  unfold childExitStep at h
  split at h
  · cases h
    exact ⟨‹_›, rfl⟩
  · cases h

theorem hostCall_eq {f : State τ → State τ} (h : hostCall f s = some s') :
    s.drop = .notStarted ∧ s' = f s := by
  unfold hostCall at h
  split at h
  · cases h
    exact ⟨‹_›, rfl⟩
  · cases h

theorem outside_move {a : Label} (ha : a.isOutside = true) (h : step advance a s = some s') :
    OutsideMove s a s' := by
  cases a with
  | shellWrite bytes =>
      simp only [step, shellWriteStep] at h
      split at h
      · cases h
      · cases h
        exact .shellWrite ‹_›
  | closeOutput =>
      cases h
      exact .closeOutput
  | childExit code =>
      rcases childExitStep_eq h with ⟨hchild, rfl⟩
      exact .childExit hchild
  | childKilled =>
      simp only [step, childKilledStep] at h
      split at h
      · rcases childExitStep_eq h with ⟨hchild, rfl⟩
        exact .childKilled ‹_› hchild
      · cases h
  | terminate =>
      rcases hostCall_eq h with ⟨hd, rfl⟩
      exact .terminate hd
  | sendBytes bytes =>
      rcases hostCall_eq h with ⟨hd, rfl⟩
      exact .sendBytes hd
  | setCallbacks cbs =>
      rcases hostCall_eq h with ⟨hd, rfl⟩
      exact .setCallbacks hd
  | setClipboardCallback cb =>
      rcases hostCall_eq h with ⟨hd, rfl⟩
      exact .setClipboardCallback hd
  | start | reader | pump | watcher | writer | drop | beginDrop => cases ha

/-- A send only adds to the writer's channel. -/
theorem sendWriter_mem {buf b : List UInt8} (hb : b ∈ s.wchan) : b ∈ s.sendWriter buf := by
  unfold State.sendWriter
  split
  · exact hb
  · exact List.mem_append_left _ hb

theorem sendBytes_frame (bytes : List UInt8) (s : State τ) :
    ∃ wchan, sendBytes bytes s = { s with wchan := wchan } ∧ ∀ b ∈ s.wchan, b ∈ wchan := by
  unfold sendBytes
  split
  · exact ⟨s.wchan, rfl, fun _ hb => hb⟩
  · split
    · exact ⟨s.sendWriter bytes, rfl, fun _ hb => sendWriter_mem hb⟩
    · exact ⟨s.wchan, rfl, fun _ hb => hb⟩

theorem beginDropStep_frame {on : Dropper} (h : beginDropStep on s = some s') :
    s.start = .returned ∧ s.drop = .notStarted ∧ s.mayDropOn on ∧
      s' = { s with drop := .storeAlive, dropper := some on } := by
  unfold beginDropStep at h
  split at h
  · rename_i hc
    cases h
    exact ⟨hc.1, hc.2.1, hc.2.2, rfl⟩
  · cases h

/-! ## What each thread writes -/

theorem startStep_frame (h : startStep s = some s') :
    ∃ alive pump pty watcher handles start, s' = { s with
      alive := alive, pump := pump, pty := pty, watcher := watcher, handles := handles,
      start := start } := by
  cases startStep_move h <;> exact ⟨_, _, _, _, _, _, rfl⟩

/-- `start` spawns the pump and the watcher at the heads of their loops. -/
theorem startStep_threads (h : startStep s = some s') :
    (s'.pump = s.pump ∨ s'.pump = .recv) ∧ (s'.watcher = s.watcher ∨ s'.watcher = .check) := by
  cases startStep_move h <;> simp

theorem readerStep_frame {n : Nat} (h : readerStep n s = some s') :
    ∃ reader unread chan sent, s' = { s with
      reader := reader, unread := unread, chan := chan, sent := sent } := by
  cases readerStep_move h <;> exact ⟨_, _, _, _, rfl⟩

theorem pumpStep_frame (h : pumpStep advance s = some s') :
    ∃ alive code term title queue chan wchan pump received fed queued dispatched replies calls,
      s' = { s with
        alive := alive, exit_code := code, term := term, current_title := title, queue := queue,
        chan := chan, wchan := wchan, pump := pump, received := received, fed := fed,
        queued := queued, dispatched := dispatched, replies := replies, calls := calls } := by
  cases pumpStep_move h <;> exact ⟨_, _, _, _, _, _, _, _, _, _, _, _, _, _, rfl⟩

theorem watcherStep_frame (h : watcherStep s = some s') :
    ∃ alive code watcher calls, s' = { s with
      alive := alive, exit_code := code, watcher := watcher, calls := calls } := by
  cases watcherStep_move h <;> exact ⟨_, _, _, _, rfl⟩

theorem writerStep_frame (h : writerStep s = some s') :
    ∃ writer wchan written, s' = { s with
      writer := writer, wchan := wchan, written := written } := by
  cases writerStep_move h <;> exact ⟨_, _, _, rfl⟩

theorem dropStep_frame (h : dropStep s = some s') :
    ∃ alive callbacks killed chan sent wchan pty drop, s' = { s with
      alive := alive, callbacks := callbacks, killed := killed, chan := chan, sent := sent,
      wchan := wchan, pty := pty, drop := drop } := by
  cases dropStep_move h <;> exact ⟨_, _, _, _, _, _, _, _, rfl⟩

theorem outside_frame {a : Label} (ha : a.isOutside = true)
    (h : step advance a s = some s') :
    ∃ callbacks wchan child killed unread outputClosed, s' = { s with
      callbacks := callbacks, wchan := wchan, child := child, killed := killed,
      unread := unread, outputClosed := outputClosed } := by
  cases outside_move ha h with
  | sendBytes =>
      rcases sendBytes_frame _ s with ⟨wchan, hsend, -⟩
      exact ⟨_, wchan, _, _, _, _, hsend⟩
  | _ => exact ⟨_, _, _, _, _, _, rfl⟩

/-- Of these only the child's own end changes its status. -/
theorem outside_child {a : Label} (ha : a.isOutside = true) (h : step advance a s = some s')
    (hexit : ∀ code, a ≠ .childExit code) (hkilled : a ≠ .childKilled) :
    s'.child = s.child := by
  cases outside_move ha h with
  | childExit => exact absurd rfl (hexit _)
  | childKilled => exact absurd rfl hkilled
  | sendBytes =>
      rcases sendBytes_frame _ s with ⟨_, hsend, -⟩
      rw [hsend]
  | _ => rfl

/-- Only `closeOutput` ends the output early; the writer's channel only grows. -/
theorem outside_pipes {a : Label} (ha : a.isOutside = true) (h : step advance a s = some s') :
    (a ≠ .closeOutput → s'.outputClosed = s.outputClosed) ∧ ∀ buf ∈ s.wchan, buf ∈ s'.wchan := by
  cases outside_move ha h with
  | closeOutput => exact ⟨fun hne => absurd rfl hne, fun _ hb => hb⟩
  | sendBytes =>
      rcases sendBytes_frame _ s with ⟨_, hsend, hmem⟩
      rw [hsend]
      exact ⟨fun _ => rfl, hmem⟩
  | _ => exact ⟨fun _ => rfl, fun _ hb => hb⟩

/-- Host calls end where `Drop` begins. -/
theorem outside_callbacks {a : Label} (ha : a.isOutside = true)
    (h : step advance a s = some s') : s'.callbacks = s.callbacks ∨ s.drop = .notStarted := by
  cases outside_move ha h with
  | terminate hd | sendBytes hd | setCallbacks hd | setClipboardCallback hd => exact .inr hd
  | _ => exact .inl rfl

/-! ## The pump and the reader's channel -/

/-- The pump has taken an `Eof` before the callback it goes on from. -/
def Resume.sawEof : Resume → Bool
  | .dispatch _ saw_eof | .rendered saw_eof => saw_eof
  | .finalRendered | .exited => true

/-- The pump has taken an `Eof` out of the channel. -/
def Pump.sawEof : Pump τ → Bool
  | .unspawned | .recv | .advance _ | .tryRecv | .advanceMore _ => false
  | .drain saw_eof | .dispatch _ saw_eof | .snapshot saw_eof | .render _ saw_eof => saw_eof
  | .call _ k | .inCall k => k.sawEof
  | _ => true

@[simp] theorem Resume.next_sawEof (k : Resume) : (k.next : Pump τ).sawEof = k.sawEof := by
  fun_cases Resume.next k <;> rfl

@[simp] theorem lookup_sawEof (s : State τ) (c : HostCall τ) (k : Resume) :
    (s.lookup c k).sawEof = k.sawEof := by
  unfold State.lookup
  split
  · rfl
  · simp

/-- What the pump does to the channel: nothing, or it takes a message, and it
has seen an `Eof` from the first one it takes on. -/
theorem pumpStep_chan (h : pumpStep advance s = some s') :
    (s'.chan = s.chan ∧
      (s'.pump.sawEof = s.pump.sawEof ∨ (s.sendersGone = true ∧ s'.pump = .done))) ∨
    (∃ buf, s.chan = .bytes buf :: s'.chan ∧ s.pump.sawEof = false ∧ s'.pump.sawEof = false) ∨
    (s.chan = .eof :: s'.chan ∧ s.pump.sawEof = false ∧ s'.pump.sawEof = true) := by
  cases pumpStep_move h with
  | recvBytes hp hc | tryBytes hp hc => exact .inr (.inl ⟨_, hc, by rw [hp]; rfl, rfl⟩)
  | recvEof hp hc | tryEof hp hc => exact .inr (.inr ⟨hc, by rw [hp]; rfl, rfl⟩)
  | disconnected hp hc hgone => exact .inl ⟨rfl, .inr ⟨hgone, rfl⟩⟩
  | advance hp => rcases hp with hp | hp <;> exact .inl ⟨rfl, .inl (by rw [hp]; rfl)⟩
  | inCall hp _ => exact .inl ⟨rfl, .inl (by rw [hp]; exact Resume.next_sawEof _)⟩
  | dispatchCall hp _ | render hp | eofRender hp | notifyExit hp =>
      exact .inl ⟨rfl, .inl (by rw [hp]; exact lookup_sawEof _ _ _)⟩
  | _ => exact .inl ⟨rfl, .inl (by simp_all [Pump.sawEof, Resume.sawEof])⟩

/-- The pump only takes from the front of the channel. -/
theorem pumpStep_suffix (h : pumpStep advance s = some s') : s'.chan <:+ s.chan := by
  rcases pumpStep_chan h with ⟨hc, -⟩ | ⟨buf, hc, -⟩ | ⟨hc, -⟩
  · exact hc ▸ List.suffix_rfl
  · rw [hc]
    exact List.suffix_cons _ _
  · rw [hc]
    exact List.suffix_cons _ _

end RataShell.Session
