import RataShell.Lib.Waiting
import RataShell.Session.State

/-!
# The mutexes of a session

Every operation of `Session` and every turn of its threads as the sequence of
its lock acquisitions, releases and host callbacks, with the lifetimes Rust
gives the guards. `Drop` is not among them.

* `Operation`, `Body`: the programs; each is well locked for the order `Before`
  of the mutexes (`operation_wellLocked`, `body_wellLocked`).
* `machine`: any number of threads run them, and operations again in their
  callbacks.
* `session_locks`: no mutex is held in a callback, nested acquisitions follow
  the order, and no thread waits for ever on mutexes.
-/

namespace RataShell.Locks

open Lts Lts.Lock

/-! ## Mutexes and programs -/

/-- The mutexes of a session; `queue` is that of `EventSink`. -/
inductive Mutex where
  | term
  | backend
  | callbacks
  | pty
  | reader
  | writer
  | pump
  | watcher
  | options
  | queue
deriving DecidableEq, Repr

/-- The order of nested acquisitions. -/
def Before (n m : Mutex) : Prop := n = .term ∧ (m = .backend ∨ m = .queue)

/-- A sequence of lock operations and callbacks. -/
abbrev Program := List (Instr Mutex)

/-- `m.lock()`, with the guard alive for `body`. -/
def locked (m : Mutex) (body : Program) : Program := .acquire m :: body ++ [.release m]

/-- `HostListener::send_event`, `n` times. -/
def send_event (n : Nat) : Program := (List.replicate n (locked .queue [])).flatten

/-- A call on the locked `TermHost` that queues `n` events. -/
def termCall (n : Nat) : Program := locked .term (send_event n)

/-- The block `{ let mut t = term.lock(); backend.lock().snapshot(&mut *t) }`:
the temporary guard of its last expression outlives `t`. -/
def snapshot : Program :=
  [.acquire .term, .acquire .backend, .release .term, .release .backend]

/-- Clone a callback under the lock and call it without. -/
def notify : Program := locked .callbacks [] ++ [.callback]

/-- How `Session::start` ends: `alive` was set, `?` on a failed spawn, or the
threads run. -/
inductive StartOutcome where
  | running
  | failed
  | started
deriving DecidableEq, Repr

/-- The operations of `Session` with what decides their lock operations: the
events queued meanwhile and the branch taken. -/
inductive Operation where
  | set_callbacks
  | set_clipboard_callback
  | start (outcome : StartOutcome)
  | resize (events : Nat)
  | send_bytes (bytes : List UInt8)
  | send_key (bytes : List UInt8)
  | request_render
  | terminate
  | is_alive
  | cols_rows
  | scroll (events : Nat)
  | scroll_to_top (events : Nat)
  | scroll_to_bottom (events : Nat)
  | scroll_info
  | clear_history (events : Nat)
  | reset_state (events : Nat)
  | exit_code
  | child_pid
  | mode_flags
  | selection_start (events : Nat)
  | selection_extend (events : Nat)
  | selection_clear (events : Nat)
  | selection_to_string
  | current_cwd
  | hyperlink_uri (id : UInt32)
  | toggle_vi_mode (events : Nat)
  | vi_mode_active
  | vi_motion (events : Nat)
  | search_next (events : Nat)
  | title
deriving DecidableEq, Repr

/-- `Session::request_render`. -/
def request_render : Program := snapshot ++ notify

/-- `Session::send_bytes`. -/
def send_bytes (bytes : List UInt8) : Program :=
  if bytes.isEmpty then [] else locked .writer []

/-- `Session::start`. A stored handle drops the old one under its lock, which
may join a thread that takes no mutex. -/
def start : StartOutcome → Program
  | .running => []
  | .failed => locked .options []
  | .started =>
      locked .options [] ++ locked .pty [] ++ locked .watcher [] ++ locked .reader [] ++
        locked .writer [] ++ locked .pump []

/-- The lock operations of an operation. -/
def Operation.program : Operation → Program
  | .set_callbacks => locked .callbacks []
  | .set_clipboard_callback => locked .callbacks []
  | .start outcome => Locks.start outcome
  | .resize events => termCall events ++ locked .pty []
  | .send_bytes bytes => Locks.send_bytes bytes
  | .send_key bytes => termCall 0 ++ if bytes.isEmpty then [] else Locks.send_bytes bytes
  | .request_render => Locks.request_render
  | .terminate => locked .pty []
  | .is_alive => []
  | .cols_rows => termCall 0
  | .scroll events => termCall events ++ Locks.request_render
  | .scroll_to_top events => termCall events ++ Locks.request_render
  | .scroll_to_bottom events => termCall events ++ Locks.request_render
  | .scroll_info => termCall 0
  | .clear_history events => termCall events ++ Locks.request_render
  | .reset_state events => termCall events ++ Locks.request_render
  | .exit_code => []
  | .child_pid => locked .pty []
  | .mode_flags => termCall 0
  | .selection_start events => termCall events ++ Locks.request_render
  | .selection_extend events => termCall events ++ Locks.request_render
  | .selection_clear events => termCall events ++ Locks.request_render
  | .selection_to_string => termCall 0
  | .current_cwd => termCall 0
  | .hyperlink_uri id => if id = 0 then [] else termCall 0
  | .toggle_vi_mode events => termCall events ++ Locks.request_render
  | .vi_mode_active => termCall 0
  | .vi_motion events => termCall events ++ Locks.request_render
  | .search_next events => termCall events
  | .title => termCall 0

/-- A turn of a thread of `Session::start`: the pump on a batch of buffers,
with what each `advance` queues and the events then drained; the pump on an
`Eof`, with the outcome of its swap; the watcher after a successful swap. -/
inductive Body where
  | batch (first : Nat) (more : List Nat) (events : List Session.Event)
  | eof (swapped : Bool)
  | watcher
deriving DecidableEq, Repr

/-- One event of the pump's loop. -/
def dispatch (e : Session.Event) : Program :=
  if (e.hostCall : Option (Session.HostCall Unit)).isSome then notify else []

/-- The lock operations of a turn. -/
def Body.program : Body → Program
  | .batch first more events =>
      termCall first ++ (more.map termCall).flatten ++ locked .term (locked .queue []) ++
        (events.map dispatch).flatten ++ snapshot ++ notify
  | .eof swapped => snapshot ++ notify ++ if swapped then notify else []
  | .watcher => notify

/-! ## They are well locked -/

theorem before_irrefl (m : Mutex) : ¬ Before m m := by
  rintro ⟨rfl, h | h⟩ <;> cases h

/-- Mutexes after which others may be acquired come first. -/
def Mutex.rank : Mutex → Nat
  | .term => 1
  | _ => 0

theorem before_wf : WellFounded fun m n : Mutex => Before n m := by
  refine Subrelation.wf ?_ (measure Mutex.rank).wf
  rintro m n ⟨rfl, rfl | rfl⟩ <;> exact Nat.zero_lt_one

theorem locked_wellLocked (m : Mutex) : WellLocked Before [] (locked m []) := by
  simp [locked, WellLocked]

/-- Events are queued under the term lock, and it stays held. -/
theorem send_event_wellLocked {n : Nat} {p : Program} (hp : WellLocked Before [.term] p) :
    WellLocked Before [.term] (send_event n ++ p) := by
  induction n with
  | zero => exact hp
  | succ n ih => simpa [send_event, List.replicate_succ, locked, WellLocked, Before] using ih

theorem termCall_wellLocked (n : Nat) : WellLocked Before [] (termCall n) := by
  refine ⟨by simp, send_event_wellLocked ?_⟩
  simp [WellLocked]

theorem snapshot_wellLocked : WellLocked Before [] snapshot := by
  simp [snapshot, WellLocked, Before]

theorem notify_wellLocked : WellLocked Before [] notify :=
  (locked_wellLocked .callbacks).append (by simp [WellLocked])

theorem request_render_wellLocked : WellLocked Before [] request_render :=
  snapshot_wellLocked.append notify_wellLocked

theorem operation_wellLocked (op : Operation) : WellLocked Before [] op.program := by
  have hnil : WellLocked Before [] ([] : Program) := rfl
  have hsend : ∀ bytes, WellLocked Before [] (send_bytes bytes) := by
    intro bytes
    unfold send_bytes
    split
    · exact hnil
    · exact locked_wellLocked _
  cases op with
  | start outcome =>
      cases outcome with
      | running => exact hnil
      | failed => exact locked_wellLocked _
      | started =>
          simp [Operation.program, Locks.start, locked, WellLocked]
  | resize n => exact (termCall_wellLocked n).append (locked_wellLocked _)
  | send_bytes bytes => exact hsend bytes
  | send_key bytes =>
      refine (termCall_wellLocked 0).append ?_
      split
      · exact hnil
      · exact hsend bytes
  | request_render => exact request_render_wellLocked
  | is_alive | exit_code => exact hnil
  | set_callbacks | set_clipboard_callback | terminate | child_pid => exact locked_wellLocked _
  | scroll n | scroll_to_top n | scroll_to_bottom n | clear_history n | reset_state n
  | selection_start n | selection_extend n | selection_clear n | toggle_vi_mode n
  | vi_motion n => exact (termCall_wellLocked n).append request_render_wellLocked
  | hyperlink_uri id =>
      simp only [Operation.program]
      split
      · exact hnil
      · exact termCall_wellLocked 0
  | search_next n => exact termCall_wellLocked n
  | _ => exact termCall_wellLocked 0

theorem dispatch_wellLocked (e : Session.Event) : WellLocked Before [] (dispatch e) := by
  unfold dispatch
  split
  · exact notify_wellLocked
  · rfl

theorem body_wellLocked (b : Body) : WellLocked Before [] b.program := by
  cases b with
  | batch first more events =>
      have hmore : WellLocked Before [] (more.map termCall).flatten := by
        refine .flatten fun p hp => ?_
        rcases List.mem_map.1 hp with ⟨n, -, rfl⟩
        exact termCall_wellLocked n
      have hdrain : WellLocked Before [] (locked .term (locked .queue [])) := by
        simp [locked, WellLocked, Before]
      have hevents : WellLocked Before [] (events.map dispatch).flatten := by
        refine .flatten fun p hp => ?_
        rcases List.mem_map.1 hp with ⟨e, -, rfl⟩
        exact dispatch_wellLocked e
      exact (((((termCall_wellLocked first).append hmore).append hdrain).append hevents).append
        snapshot_wellLocked).append notify_wellLocked
  | eof swapped =>
      refine request_render_wellLocked.append ?_
      split
      · exact notify_wellLocked
      · rfl
  | watcher => exact notify_wellLocked

/-! ## The threads -/

variable {θ : Type} [DecidableEq θ]

/-- What a thread does: begin a turn of its own, call an operation, go on, find
no callback registered, or return from a callback. -/
inductive Move where
  | begin (b : Body)
  | call (op : Operation)
  | exec
  | skip
  | leave
deriving DecidableEq, Repr

/-- One step of thread `t`; a turn begins outside all operations. -/
def step : θ × Move → State θ Mutex → Option (State θ Mutex)
  | (t, .begin b), s =>
      match s.stack t with
      | [] => Lock.step (t, .call b.program) s
      | _ :: _ => none
  | (t, .call op), s => Lock.step (t, .call op.program) s
  | (t, .exec), s => Lock.step (t, .exec) s
  | (t, .skip), s => Lock.step (t, .skip) s
  | (t, .leave), s => Lock.step (t, .leave) s

/-- The threads of a session and of its host. -/
def machine (θ : Type) [DecidableEq θ] : Machine (State θ Mutex) (θ × Move) where
  Init := (Lock.machine θ Mutex).Init
  step := step

/-- Every step is one of a disciplined thread. -/
theorem step_disciplined {a : θ × Move} {s s' : State θ Mutex} (h : step a s = some s') :
    ∃ b, Disciplined Before b s ∧ Lock.step b s = some s' := by
  rcases a with ⟨t, mv⟩
  have hgo : ∀ act : Act Mutex, (∀ p, act ≠ .call p) → Disciplined Before (t, act) s := by
    intro act hact p hp
    exact absurd hp (hact p)
  cases mv with
  | begin b =>
      simp only [step] at h
      split at h
      · refine ⟨(t, .call b.program), ?_, h⟩
        rintro p hp
        cases hp
        exact body_wellLocked b
      · cases h
  | call op =>
      refine ⟨(t, .call op.program), ?_, h⟩
      rintro p hp
      cases hp
      exact operation_wellLocked op
  | exec => exact ⟨(t, .exec), hgo _ (by simp), h⟩
  | skip => exact ⟨(t, .skip), hgo _ (by simp), h⟩
  | leave => exact ⟨(t, .leave), hgo _ (by simp), h⟩

theorem reachable_disciplined {C : StepCond (State θ Mutex) (θ × Move)} {s : State θ Mutex}
    (h : (machine θ).Reachable C s) : (Lock.machine θ Mutex).Reachable (Disciplined Before) s := by
  refine Machine.Reachable.simulate (N := Lock.machine θ Mutex) ?_ ?_ h
  · exact fun _ hinit => hinit
  · exact fun _ _ _ _ hstep => step_disciplined hstep

/-- In every reachable state, for any threads: one that runs host code holds no
mutex; one that holds a mutex and acquires another holds the term lock and
acquires the backend or the queue; and every thread is free to run as far as
mutexes go, or waits through some chain of holders for one that is. -/
theorem session_locks {s : State θ Mutex}
    (h : (machine θ).Reachable (fun _ _ => True) s) :
    (∀ t, s.InHostCode t → ∀ m, s.holder m ≠ some t) ∧
    (∀ t m n, s.wants t = some m → s.holder n = some t →
      n = .term ∧ (m = .backend ∨ m = .queue)) ∧
    (∀ t, Progress s.waits s.unblocked t) := by
  have hreach := reachable_disciplined h
  refine ⟨?_, ?_, ?_⟩
  · intro t hhost m
    exact callback_holds_none before_irrefl hreach hhost m
  · intro t m n hwants hholds
    exact acquire_ordered before_irrefl hreach hwants hholds
  · intro t
    exact lock_progress before_irrefl before_wf hreach t

/-- No thread has done anything yet. -/
def fresh : State Bool Mutex := ⟨fun _ => none, fun _ => []⟩

/-- The pump (`false`) rings the bell while a host thread (`true`) scrolls. -/
def bellAndScroll : List (Bool × Move) :=
  List.flatten [[(false, .begin (.batch 0 [] [.bell]))], List.replicate 9 (false, .exec),
    [(true, .call (.scroll 1)), (true, .exec)]]

theorem session_locks_bellAndScroll : ∃ s, (machine Bool).run fresh bellAndScroll = some s ∧
    s.InHostCode false ∧ (∀ m, s.holder m ≠ some false) ∧
    s.wants true = some .queue ∧ (∀ n, s.holder n = some true → n = .term) ∧
    Progress s.waits s.unblocked true := by
  have hinit : (machine Bool).Init fresh := ⟨fun _ => rfl, fun _ => rfl⟩
  have hmeets : (machine Bool).Meets (fun _ _ => True) fresh bellAndScroll := by
    decide +kernel
  have htest : ((machine Bool).run fresh bellAndScroll).any (fun s =>
      (s.stack false).head?.all Frame.inCallback &&
        decide (s.wants true = some .queue)) = true := by
    decide +kernel
  obtain ⟨s, hrun, hreach, hs⟩ :=
    Machine.exists_reachable fresh bellAndScroll hinit hmeets htest
  rw [Bool.and_eq_true, decide_eq_true_eq] at hs
  rcases hs with ⟨hin, hwants⟩
  have hhost : s.InHostCode false := by
    intro f hf
    rw [Option.mem_def] at hf
    simpa [hf] using hin
  rcases session_locks hreach with ⟨hnone, horder, hprogress⟩
  exact ⟨s, hrun, hhost, hnone false hhost, hwants,
    fun n hn => (horder true .queue n hwants hn).1, hprogress true⟩

end RataShell.Locks
