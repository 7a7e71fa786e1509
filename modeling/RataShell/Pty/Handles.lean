import RataShell.Lib.HandleTable
import RataShell.Session.Deadlock
import RataShell.Session.Flush

/-!
# The handles of a started session

`PtyHost` owns the handles that `spawn` has opened, and closes them with the last `Arc`.
The reader and the writer read and write through copies of their own
(`PipeHandle::duplicate`), and close these when they end. The process around the session
opens and closes other handles meanwhile, and Windows gives the number of a closed one out
again.

* `Holds`, `Uses`: which handles are not closed, and which a thread is about to use.
* `step_owned`: what the threads close.
* `handles_sound`: no closed handle is used or closed again, and what `Drop` leaves open.
-/

namespace RataShell.Pty.Handles

open Session (Drop State)
open HandleTable (Entry Owned Table closeAll closeOther openOther)

variable {τ : Type}

/-! ## Owners -/

/-- The handles of a session: those in `PtyHost`, and the `OwnedHandle` of each thread. -/
inductive Handle where
  | inputWrite | outputRead
  | hProcess | hThread
  | job
  | readerCopy
  | writerCopy
deriving DecidableEq, Repr

/-- What `Drop` of `PtyHost` closes: its body, then the fields. -/
def ptyHandles : List Handle := [.hProcess, .hThread, .inputWrite, .outputRead, .job]

/-- A handle is not closed yet. -/
def Holds (s : State τ) : Handle → Prop
  | .readerCopy => s.reader ≠ .done
  | .writerCopy => s.writer ≠ .done
  | .inputWrite | .outputRead | .hProcess | .hThread | .job => s.closed = false

/-- A thread is at a call that takes the handle: `ReadFile`, `WriteFile`, `try_exit_code`
of the pump and the watcher, or what the host and `Drop` do to the child while
`Session.pty` is there. -/
def Uses (s : State τ) : Handle → Prop
  | .readerCopy => s.reader = .readFile
  | .writerCopy => ∃ buf, s.writer = .writeFile buf
  | .hProcess => s.pump = .exitCode ∨ s.watcher = .poll ∨ s.pty = true
  | .inputWrite | .outputRead | .hThread | .job => False

/-- What a step closes: the last `Arc<PtyHost>` goes, or a thread ends. -/
def closes (s s' : State τ) : List Handle :=
  (if s.closed = false ∧ s'.closed = true then ptyHandles else []) ++
    (if s.reader ≠ .done ∧ s'.reader = .done then [.readerCopy] else []) ++
      (if s.writer ≠ .done ∧ s'.writer = .done then [.writerCopy] else [])

/-! ## The system -/

/-- A session and the handles that are open in the process. -/
structure System (τ : Type) where
  session : State τ
  table : Table Handle Nat

/-- A step of the session, or of the rest of the process. -/
inductive Label where
  | session (a : Session.Label)
  | openOther (n : Nat)
  | closeOther (n : Nat)
deriving DecidableEq, Repr

section Machine

variable (number : Handle → Nat) (advance : τ → List UInt8 → τ × List Session.Event)

def systemStep : Label → System τ → Option (System τ)
  | .session a, s => (Session.step advance a s.session).map fun session =>
      { session, table := closeAll number (closes s.session session) s.table }
  | .openOther n, s => (openOther n s.table).map fun table => { s with table }
  | .closeOther n, s => (closeOther n s.table).map fun table => { s with table }

/-- The reader and the writer are spawned, and all handles are open. -/
def System.Init (s : System τ) : Prop :=
  Session.Init s.session ∧ Owned number (fun _ => True) s.table

def machine : Lts.Machine (System τ) Label where
  Init := System.Init number
  step := systemStep number advance

end Machine

/-! ## What a step closes -/

section Closing

variable {advance : τ → List UInt8 → τ × List Session.Event} {s s' : State τ}

/-- A thread that has ended takes no step, and no other one starts it again. -/
theorem step_ended {a : Session.Label} (h : Session.step advance a s = some s') :
    (s.reader = .done → s'.reader = .done) ∧ (s.writer = .done → s'.writer = .done) := by
  cases a with
  | start =>
      rcases Session.startStep_frame h with ⟨_, _, _, _, _, _, rfl⟩
      exact ⟨id, id⟩
  | reader n =>
      refine ⟨fun hdone => ?_, fun hdone => ?_⟩
      · simp [Session.step, Session.readerStep, hdone] at h
      · rcases Session.readerStep_frame h with ⟨_, _, _, _, rfl⟩
        exact hdone
  | pump =>
      rcases Session.pumpStep_frame h with ⟨_, _, _, _, _, _, _, _, _, _, _, _, _, _, rfl⟩
      exact ⟨id, id⟩
  | watcher =>
      rcases Session.watcherStep_frame h with ⟨_, _, _, _, rfl⟩
      exact ⟨id, id⟩
  | writer =>
      refine ⟨fun hdone => ?_, fun hdone => ?_⟩
      · rcases Session.writerStep_frame h with ⟨_, _, _, rfl⟩
        exact hdone
      · simp [Session.step, Session.writerStep, hdone] at h
  | drop =>
      cases Session.dropStep_move h
      all_goals exact ⟨id, id⟩
  | beginDrop on =>
      rcases Session.beginDropStep_frame h with ⟨-, -, -, rfl⟩
      exact ⟨id, id⟩
  | _ =>
      rcases Session.outside_frame rfl h with ⟨_, _, _, _, _, _, rfl⟩
      exact ⟨id, id⟩

theorem mem_closes {k : Handle} : k ∈ closes s s' ↔ Holds s k ∧ ¬ Holds s' k := by
  simp only [closes, List.mem_append]
  cases k <;> simp [ptyHandles, Holds]

theorem closes_nodup : (closes s s').Nodup := by
  unfold closes
  split_ifs <;> decide

/-- Nothing is opened again. -/
theorem step_holds {a : Session.Label} (h : Session.step advance a s = some s')
    (hph : Session.Phases s) {k : Handle} (hk : Holds s' k) : Holds s k := by
  rcases step_ended h with ⟨hreader, hwriter⟩
  have hclosed : s'.closed = false → s.closed = false := by
    intro hopen
    by_contra hne
    rw [Session.step_closed h hph (Bool.not_eq_false _ ▸ hne)] at hopen
    cases hopen
  cases k with
  | readerCopy => exact fun hdone => hk (hreader hdone)
  | writerCopy => exact fun hdone => hk (hwriter hdone)
  | _ => exact hclosed hk

/-- Who uses a handle holds it. -/
theorem holds_of_uses {k : Handle} (hk : Uses s k) : Holds s k := by
  cases k with
  | readerCopy =>
      have hreader : s.reader = .readFile := hk
      simp [Holds, hreader]
  | writerCopy =>
      rcases hk with ⟨buf, hwriter⟩
      simp [Holds, hwriter]
  | hProcess =>
      rcases hk with hpump | hwatcher | hpty
      · simp [Holds, State.closed, hpump, Session.Pump.holdsPty]
      · simp [Holds, State.closed, hwatcher, Session.Watcher.holdsPty]
      · simp [Holds, State.closed, hpty]
  | _ => cases hk

end Closing

/-! ## Runs -/

section Runs

variable {number : Handle → Nat} {advance : τ → List UInt8 → τ × List Session.Event}
  {s s' : System τ}

/-- What every state of a run keeps. -/
structure Inv (number : Handle → Nat) (advance : τ → List UInt8 → τ × List Session.Event)
    (s : System τ) : Prop where
  session : (Session.machine advance).Reachable (fun _ _ => True) s.session
  owned : Owned number (Holds s.session) s.table
  writer : 7 ≤ s.session.drop.rank → s.session.writer = .done

theorem init_inv (h : s.Init number) : Inv number advance s := by
  rcases h with ⟨hsession, howned⟩
  refine ⟨.init hsession, howned.congr fun k => ?_, ?_⟩
  all_goals rcases hsession with ⟨term, title, cbs, code, hinit⟩
  · rw [hinit]
    cases k <;> simp [Holds, Session.init, State.closed, Session.Start.holdsPty]
  · simp [hinit, Session.init, Drop.rank]

/-- The session closes what it does not hold any more. -/
theorem step_owned {a : Session.Label} {session : State τ}
    (h : Session.step advance a s.session = some session) (hph : Session.Phases s.session)
    (howned : Owned number (Holds s.session) s.table) :
    Owned number (Holds session) (closeAll number (closes s.session session) s.table) := by
  refine (howned.closeAll closes_nodup fun k hk => (mem_closes.1 hk).1).congr fun k => ?_
  rw [mem_closes, not_and_not_right]
  exact ⟨fun hk => hk.2 hk.1, fun hk => ⟨step_holds h hph hk, fun _ => hk⟩⟩

theorem step_inv {a : Label} (h : systemStep number advance a s = some s')
    (hs : Inv number advance s) : Inv number advance s' := by
  rcases hs with ⟨hreach, howned, hwriter⟩
  cases a with
  | session a =>
      rcases Option.map_eq_some_iff.1 h with ⟨session, hstep, rfl⟩
      have hph := Session.reachable_phases hreach
      refine ⟨hreach.trans (.single trivial hstep), step_owned hstep hph howned, fun hrank => ?_⟩
      have hdone : s.session.writer = .done :=
        ((Writing.step_rank hstep).2 hrank).elim hwriter id
      exact (step_ended hstep).2 hdone
  | openOther n =>
      rcases Option.map_eq_some_iff.1 h with ⟨table, hopen, rfl⟩
      exact ⟨hreach, howned.openOther hopen, hwriter⟩
  | closeOther n =>
      rcases Option.map_eq_some_iff.1 h with ⟨table, hclose, rfl⟩
      exact ⟨hreach, howned.closeOther hclose, hwriter⟩

/-- The thread that `Drop` ran on has not ended. -/
def OnThread (s : State τ) : Prop :=
  s.dropper = some .pump ∧ s.pump ≠ .done ∨ s.dropper = some .watcher ∧ s.watcher ≠ .done

/-- Behind `Drop` the session holds nothing any more, save `PtyHost` where the pump or the
watcher that it ran on holds the last `Arc`. -/
theorem holds_after_drop (hs : Inv number advance s) (hd : s.session.drop = .returned)
    (k : Handle) : Holds s.session k ↔ k ∈ ptyHandles ∧ OnThread s.session := by
  have hph := Session.reachable_phases hs.session
  have hjoined := Session.reachable_joined hs.session
  have hrank : s.session.drop.rank = 11 := by rw [hd]; rfl
  have hreader : s.session.reader = .done := hjoined.reader (by omega)
  have hwriter : s.session.writer = .done := hs.writer (by omega)
  have hpty : s.session.pty = false := hjoined.pty (by omega)
  have hpump := hjoined.pump (by omega)
  have hwatcher := hjoined.watcher (by omega)
  have hstart : s.session.start = .returned := hph.drop (by simp [hd])
  have hclosed : s.session.closed = false ↔ OnThread s.session := by
    rw [← Bool.not_eq_true, Session.closed_iff hph, hstart, hpty]
    simp only [Session.Start.holdsPty, true_and, OnThread]
    -- one of the two is not joined
    cases hon : s.session.dropper with
    | none => simp [hon] at hpump hwatcher; simp [hpump, hwatcher]
    | some d => cases d <;> simp_all
  cases k <;> simp [Holds, ptyHandles, hreader, hwriter, hclosed]

/-- Whatever numbers Windows gives out again: a handle that a thread uses is open and is its
own; each handle that a step of the session closes is open and is its own at that moment;
and once `Drop` has returned all are closed, save those of `PtyHost` while the pump or the
watcher that `Drop` ran on has not ended. -/
theorem handles_sound (h : (machine number advance).Reachable (fun _ _ => True) s) :
    (∀ k, Uses s.session k → s.table (number k) = some (.ours k)) ∧
      (∀ a session, Session.step advance a s.session = some session →
        ∀ before k after, closes s.session session = before ++ k :: after →
          closeAll number before s.table (number k) = some (.ours k)) ∧
      (s.session.drop = .returned → ∀ n k, s.table n = some (.ours k) ↔
        k ∈ ptyHandles ∧ n = number k ∧ OnThread s.session) := by
  have hinv : Inv number advance s := by
    refine Lts.Machine.init_invariant (Inv number advance) (fun _ => init_inv) ?_ h
    intro a t t' _ hstep ht
    exact step_inv hstep ht
  refine ⟨fun k hk => hinv.owned.open_of_held (holds_of_uses hk), ?_, ?_⟩
  · intro a session _ before k after heq
    exact hinv.owned.closes_own closes_nodup (fun j hj => (mem_closes.1 hj).1) heq
  · intro hd n k
    rw [hinv.owned n k, holds_after_drop hinv hd k]
    tauto

end Runs

/-- Seven numbers, and a process that has opened nothing else. -/
def numbers : Handle → Nat
  | .inputWrite => 4
  | .outputRead => 8
  | .hProcess => 12
  | .hThread => 16
  | .job => 20
  | .readerCopy => 24
  | .writerCopy => 28

def spawned : System Unit where
  session := Session.init () "" .default 0
  table n :=
    ([.inputWrite, .outputRead, .hProcess, .hThread, .job, .readerCopy, .writerCopy].find?
      fun k => numbers k = n).map .ours

/-- The session is destroyed, `PtyHost` goes while the reader is still in `ReadFile`, and
the process opens another handle. -/
def reused : List Label :=
  List.flatten [List.replicate 5 (.session .start), [.session (.beginDrop .host)],
    List.replicate 5 (.session .drop), [.session .writer], List.replicate 2 (.session .drop),
    List.replicate 6 (.session .pump), [.session .watcher, .openOther (numbers .outputRead)]]

/-- The number of the pipe in `PtyHost` is that of another handle, and the reader's is that
of its copy. -/
theorem handles_sound_reused : ∃ s,
    (machine numbers Session.blank).run spawned reused = some s ∧
      s.table (numbers .outputRead) = some .other ∧
      s.table (numbers .readerCopy) = some (.ours .readerCopy) := by
  have hinit : spawned.Init numbers := by
    refine ⟨Session.init_Init () "" .default 0, fun n k => ?_⟩
    simp only [spawned, Option.map_eq_some_iff, Entry.ours.injEq, exists_eq_right, true_and]
    constructor
    · intro hfind
      have hnumber := List.find?_some hfind
      exact (of_decide_eq_true hnumber).symm
    · rintro rfl
      cases k <;> rfl
  have htest : ((machine numbers Session.blank).run spawned reused).any
      (fun s => decide (s.session.reader = .readFile ∧
        s.table (numbers .outputRead) = some .other)) = true := by
    decide +kernel
  rcases Lts.Machine.exists_reachable _ _ hinit (Lts.Machine.meets_true _ _) htest with
    ⟨s, hrun, hs, hend⟩
  rcases of_decide_eq_true hend with ⟨hreader, hother⟩
  exact ⟨s, hrun, hother, (handles_sound hs).1 .readerCopy hreader⟩

end RataShell.Pty.Handles
