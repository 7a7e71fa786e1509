import Mathlib.Order.RelClasses
import RataShell.Session.Deadlock

/-!
# `Drop` inside `on_exit`

While the output can end only at `ClosePseudoConsole`, `on_exit` is delivered
by the watcher. The frame below the callback owns an `Arc<PtyHost>`, so the
reader that `Drop` joins never sees the end of the output.

* `OnWatcher`: such a `Drop` runs on the watcher and has not returned.
* `State.work`: every step of a thread meanwhile decreases a measure.
* `exit_drop_deadlock`: so the threads come to rest with `Drop` blocked in a
  join.
-/

namespace RataShell.Session

variable {τ : Type} {advance : τ → List UInt8 → τ × List Event} {s s' : State τ}

/-- The host destroys the session inside its `on_exit` callback. -/
def ExitDrop : Lts.StepCond (State τ) Label := fun a s =>
  match a with
  | .beginDrop .pump => s.pump = .inCall .exited
  | .beginDrop .watcher => s.watcher = .inCall
  | .beginDrop .host => False
  | _ => True

instance [DecidableEq τ] (a : Label) (s : State τ) : Decidable (ExitDrop a s) :=
  match a with
  | .beginDrop .pump => decEq s.pump (.inCall .exited)
  | .beginDrop .watcher => decEq s.watcher .inCall
  | .beginDrop .host => isFalse id
  | .start | .reader _ | .pump | .watcher | .writer | .drop => isTrue trivial
  | .shellWrite _ | .closeOutput | .childExit _ | .childKilled => isTrue trivial
  | .terminate | .sendBytes _ | .setCallbacks _ | .setClipboardCallback _ => isTrue trivial

/-! ## It runs on the watcher -/

/-- A `Drop` runs on the watcher and has not returned. -/
def OnWatcher (s : State τ) : Prop :=
  s.drop ≠ .notStarted → s.dropper = some .watcher ∧ s.drop ≠ .returned

/-- `Drop` returns from the join of the reader. -/
theorem dropStep_returned (h : dropStep s = some s') (hret : s'.drop = .returned) :
    s.drop = .joinReader ∧ s.reader = .done := by
  cases dropStep_move h with
  | joinReader hd hr => exact ⟨hd, hr⟩
  | _ => cases hret

/-- While the watcher's frame lies below `Drop`, the output does not end. -/
theorem OnWatcher.reader (hs : OnWatcher s) (hph : Phases s) (he : EofInv s)
    (hoff : s.drop ≠ .notStarted) :
    s.closed = false ∧ s.reader ≠ .send .eof ∧ s.reader ≠ .done := by
  rcases hs hoff with ⟨hon, hret⟩
  have hclosed : s.closed ≠ true := by
    intro hc
    have hdone := ((closed_iff hph).1 hc).2.2.2
    rw [hph.onWatcher hon hret] at hdone
    cases hdone
  exact ⟨by simpa using hclosed, fun hr => hclosed (he.reader (.inl hr)),
    fun hr => hclosed (he.reader (.inr hr))⟩

theorem step_onWatcher {a : Label} (h : step advance a s = some s') (hC : ExitDrop a s)
    (hph : Phases s) (he : EofInv s) (hs : OnWatcher s) : OnWatcher s' := by
  cases a with
  | start =>
      rcases startStep_frame h with ⟨_, _, _, _, _, _, rfl⟩
      exact hs
  | reader n =>
      rcases readerStep_frame h with ⟨_, _, _, _, rfl⟩
      exact hs
  | pump =>
      rcases pumpStep_frame h with ⟨_, _, _, _, _, _, _, _, _, _, _, _, _, _, rfl⟩
      exact hs
  | watcher =>
      rcases watcherStep_frame h with ⟨_, _, _, _, rfl⟩
      exact hs
  | writer =>
      rcases writerStep_frame h with ⟨_, _, _, rfl⟩
      exact hs
  | drop =>
      have hoff := (dropStep_drop h).1
      have hret := dropStep_returned h
      rcases dropStep_frame h with ⟨_, _, _, _, _, _, _, _, rfl⟩
      refine fun _ => ⟨(hs hoff).1, fun hret' => ?_⟩
      exact (hs.reader hph he hoff).2.2 (hret hret').2
  | beginDrop on =>
      rcases beginDropStep_frame h with ⟨-, hoff, -, rfl⟩
      cases on with
      | host => exact hC.elim
      | watcher => exact fun _ => ⟨rfl, by simp⟩
      | pump =>
          -- the pump leaves its loop by an `Eof`, and there is none before `Drop`
          have hin : s.pump = .inCall .exited := hC
          have hrank := he.eof (.inr (by rw [hin]; rfl))
          simp [hoff, Drop.rank] at hrank
  | _ =>
      rcases outside_frame rfl h with ⟨_, _, _, _, _, _, rfl⟩
      exact hs

/-! ## The threads come to rest -/

/-- How far the pump is from its next receive. -/
def Pump.phase : Pump τ → Nat
  | .advance _ | .advanceMore _ => 20
  | .tryRecv => 19
  | .drain _ => 18
  | .dispatch _ _ | .call _ (.dispatch _ _) | .inCall (.dispatch _ _) => 17
  | .snapshot _ => 16
  | .render _ _ => 15
  | .call _ (.rendered _) => 14
  | .inCall (.rendered _) => 13
  | .eofSnapshot => 12
  | .eofRender _ => 11
  | .call _ .finalRendered => 10
  | .inCall .finalRendered => 9
  | .exitCode => 8
  | .storeCode _ => 7
  | .swapAlive _ => 6
  | .notifyExit _ => 5
  | .call _ .exited => 4
  | .inCall .exited => 3
  | .recv => 2
  | .unspawned | .done => 0

/-- What the pump has to do for the events in hand. -/
def Pump.events : Pump τ → Nat
  | .dispatch events _ => 3 * events.length
  | .call _ (.dispatch events _) => 3 * events.length + 2
  | .inCall (.dispatch events _) => 3 * events.length + 1
  | _ => 0

/-- What is left to do: for `Drop` and the reader, for the pump by messages,
program points and events, for the writer. -/
def State.work (s : State τ) : Nat × Nat × Nat × Nat × Nat :=
  (2 * s.unread.length + (match s.reader with | .send _ => 1 | _ => 0) + (11 - s.drop.rank),
    s.chan.length, s.pump.phase, s.pump.events,
    2 * s.wchan.length + (match s.writer with | .writeFile _ => 1 | _ => 0))

/-- Less work, lexicographically. -/
def LessWork : Nat × Nat × Nat × Nat × Nat → Nat × Nat × Nat × Nat × Nat → Prop :=
  Prod.Lex (· < ·) (Prod.Lex (· < ·) (Prod.Lex (· < ·) (Prod.Lex (· < ·) (· < ·))))

theorem lessWork_wf : WellFounded LessWork :=
  Nat.lt_wfRel.wf.prod_lex (Nat.lt_wfRel.wf.prod_lex (Nat.lt_wfRel.wf.prod_lex
    (Nat.lt_wfRel.wf.prod_lex Nat.lt_wfRel.wf)))

/-- The pump takes a message or comes closer to its next receive. -/
theorem pumpStep_phase (h : pumpStep advance s = some s') :
    s'.chan.length < s.chan.length ∨ s'.chan = s.chan ∧
      (s'.pump.phase < s.pump.phase ∨
        s'.pump.phase = s.pump.phase ∧ s'.pump.events < s.pump.events) := by
  cases pumpStep_move h with
  | recvBytes hp hc | recvEof hp hc | tryBytes hp hc | tryEof hp hc => simp [hc]
  | advance hp => rcases hp with hp | hp <;> simp [hp, Pump.phase, State.advance]
  | @dispatchCall e events b c hp he =>
      unfold State.lookup
      split
      · simp [hp, Pump.phase, Pump.events]
        omega
      · simp [hp, Pump.phase, Pump.events, Resume.next]
  | @inCall k hp hfree =>
      rcases k with _ | b | _ | _
      · simp [hp, Pump.phase, Pump.events, Resume.next]
      · cases b <;> simp [hp, Pump.phase, Resume.next]
      · simp [hp, Pump.phase, Resume.next]
      · simp [hp, Pump.phase, Resume.next]
  | @render snap b hp =>
      unfold State.lookup
      split
      · simp [hp, Pump.phase]
      · cases b <;> simp [hp, Pump.phase, Resume.next]
  | eofRender hp | notifyExit hp =>
      unfold State.lookup
      split <;> simp [hp, Pump.phase, Resume.next]
  | @call c k hp =>
      rcases k with _ | b | _ | _ <;> simp [hp, Pump.phase, Pump.events]
  | _ => simp [*, Pump.phase, Pump.events]

theorem Drop.rank_le (d : Drop) : d.rank ≤ 11 := by
  cases d <;> simp [Drop.rank]

/-- The state of the session while such a `Drop` runs. -/
structure ExitDropInv (s : State τ) : Prop where
  phases : Phases s
  joined : Joined s
  eof : EofInv s
  onWatcher : OnWatcher s
  off : s.drop ≠ .notStarted

/-- A step of a thread keeps it. -/
theorem thread_step_inv {a : Label} (ha : a.thread ≠ none) (h : step advance a s = some s')
    (hs : ExitDropInv s) : ExitDropInv s' := by
  have hC : StrictEof a s ∧ ExitDrop a s := by
    cases a <;> simp_all [Label.thread, StrictEof, ExitDrop]
  have hoff : s'.drop ≠ .notStarted := by
    cases a with
    | drop => exact (dropStep_drop h).2.2
    | reader n =>
        rcases readerStep_frame h with ⟨_, _, _, _, rfl⟩
        exact hs.off
    | pump =>
        rcases pumpStep_frame h with ⟨_, _, _, _, _, _, _, _, _, _, _, _, _, _, rfl⟩
        exact hs.off
    | watcher =>
        rcases watcherStep_frame h with ⟨_, _, _, _, rfl⟩
        exact hs.off
    | writer =>
        rcases writerStep_frame h with ⟨_, _, _, rfl⟩
        exact hs.off
    | _ => exact absurd rfl ha
  exact ⟨step_phases h hs.phases, step_joined h hs.phases hs.joined,
    step_eofInv h hC.1 hs.phases hs.joined hs.eof,
    step_onWatcher h hC.2 hs.phases hs.eof hs.onWatcher, hoff⟩

/-- A step of a thread leaves less work. -/
theorem thread_step_work {a : Label} (ha : a.thread ≠ none) (h : step advance a s = some s')
    (hs : ExitDropInv s) : LessWork s'.work s.work := by
  rcases hs.onWatcher hs.off with ⟨hon, hret⟩
  rcases hs.onWatcher.reader hs.phases hs.eof hs.off with ⟨hopen, hnoEof, hnotDone⟩
  simp only [LessWork, Prod.lex_def]
  cases a with
  | reader n =>
      left
      cases readerStep_move h with
      | readEof hr he => simp [State.atEof, hopen, hs.eof.strict] at he
      | readBytes hr hpos hlen =>
          simp only [State.work, hr, List.length_drop]
          omega
      | sendBytes hr hroom => simp [State.work, hr]
      -- the console is open below the callback
      | sendEof hr hroom => exact absurd hr hnoEof
      | gone hr hgone =>
          simp only [State.receiversGone, Bool.and_eq_true, beq_iff_eq] at hgone
          exact absurd hgone.2 hret
  | pump =>
      have hphase := pumpStep_phase h
      rcases pumpStep_frame h with ⟨_, _, _, _, _, chan, _, pump, _, _, _, _, _, _, rfl⟩
      right
      refine ⟨rfl, ?_⟩
      rcases hphase with hlen | ⟨hc, hphase⟩
      · exact .inl hlen
      · have hc' : chan = s.chan := hc
        subst hc'
        refine .inr ⟨rfl, ?_⟩
        rcases hphase with hlt | ⟨heq, hlt⟩
        · exact .inl hlt
        · exact .inr ⟨heq, .inl hlt⟩
  | watcher =>
      -- the watcher is below `Drop`
      have hw := hs.phases.onWatcher hon hret
      simp [step, watcherStep, hw, hon, hret] at h
  | writer =>
      cases writerStep_move h with
      | recvSentinel hw hc =>
          refine .inr ⟨rfl, .inr ⟨rfl, .inr ⟨rfl, .inr ⟨rfl, ?_⟩⟩⟩⟩
          simp [State.work, hw, hc]
      | recvBytes hw hc =>
          refine .inr ⟨rfl, .inr ⟨rfl, .inr ⟨rfl, .inr ⟨rfl, ?_⟩⟩⟩⟩
          simp [State.work, hw, hc]
          omega
      | writeFile hw =>
          refine .inr ⟨rfl, .inr ⟨rfl, .inr ⟨rfl, .inr ⟨rfl, ?_⟩⟩⟩⟩
          simp [State.work, hw]
  | drop =>
      left
      have hrank := (dropStep_writes h).2.1
      have hle := Drop.rank_le s'.drop
      rcases dropStep_frame h with ⟨_, _, _, _, _, _, _, drop, rfl⟩
      have hrank' : drop.rank = s.drop.rank + 1 := hrank
      have hle' : drop.rank ≤ 11 := hle
      simp only [State.work]
      omega
  | _ => exact absurd rfl ha

/-- When no thread can move, `Drop` is blocked in the join of the pump or of
the reader. -/
theorem blocked_in_join (hs : ExitDropInv s) (hquiet : ∀ t, ¬ s.moves advance t) :
    (s.drop = .joinPump ∧ s.pump ≠ .done) ∨ (s.drop = .joinReader ∧ s.reader ≠ .done) := by
  rcases hs.onWatcher hs.off with ⟨hon, hret⟩
  by_contra hno
  push Not at hno
  -- the writer has its sentinel, and the watcher is not joined
  refine hquiet .drop (drop_moves hs.off hret (fun hd => ?_) (fun hd => .inr (hno.1 hd))
    (fun _ => .inl hon) hno.2)
  by_contra hne
  exact hquiet .writer (writer_moves hne (hs.eof.sentinel (by simp [hd, Drop.rank]) hne))

/-- A `Drop` inside `on_exit` never returns, and the steps of the session's
threads lead from any state of it to one where it is blocked in the join of the
pump or the reader and nobody can move. -/
theorem exit_drop_deadlock (advance : τ → List UInt8 → τ × List Event) {s : State τ}
    (h : (machine advance).Reachable (fun a s => StrictEof a s ∧ ExitDrop a s) s)
    (hoff : s.drop ≠ .notStarted) :
    s.drop ≠ .returned ∧ ∃ s', (machine advance).Steps (fun a _ => a.thread ≠ none) s s' ∧
      ((s'.drop = .joinPump ∧ s'.pump ≠ .done) ∨ (s'.drop = .joinReader ∧ s'.reader ≠ .done)) ∧
      Deadlocked advance s' := by
  have heof : EofInv s := reachable_eofInv (fun a s hC => hC.1) h
  have hon : OnWatcher s := by
    have hboth : (Joined s ∧ EofInv s) ∧ OnWatcher s := by
      refine reachable_invariant (fun s => (Joined s ∧ EofInv s) ∧ OnWatcher s) ?_ ?_ h
      · intro s hs
        refine ⟨⟨init_joined hs, init_eofInv hs⟩, fun hne => absurd ?_ hne⟩
        rcases hs with ⟨term, title, cbs, code, rfl⟩
        rfl
      · rintro a s s' ⟨hstrict, hexit⟩ hstep hph ⟨⟨hj, he⟩, hs⟩
        exact ⟨⟨step_joined hstep hph hj, step_eofInv hstep hstrict hph hj he⟩,
          step_onWatcher hstep hexit hph he hs⟩
    exact hboth.2
  have hinv : ExitDropInv s := ⟨reachable_phases h, reachable_joined h, heof, hon, hoff⟩
  refine ⟨(hon hoff).2, ?_⟩
  obtain ⟨s', hsteps, hinv', hquiet⟩ := Lts.Machine.exists_quiescent (M := machine advance)
    lessWork_wf State.work (T := fun a => a.thread ≠ none) (I := ExitDropInv)
    (fun a s s' ha hstep hs => ⟨thread_step_inv ha hstep hs, thread_step_work ha hstep hs⟩) hinv
  have hno : ∀ t, ¬ s'.moves advance t := by
    rintro t ⟨a, ha, t', ht'⟩
    have hnone : step advance a s' = none := hquiet a (by simp [ha])
    rw [hnone] at ht'
    cases ht'
  exact ⟨s', hsteps, blocked_in_join hinv' hno,
    ⟨hinv'.off, (hinv'.onWatcher hinv'.off).2⟩, fun u _ => hno u⟩

/-- The child ends, the watcher reports it, and the host destroys the session
in the callback. -/
def destroyInExit : List Label :=
  List.flatten [List.replicate 5 .start, [.childExit 0], List.replicate 6 .watcher,
    [.beginDrop .watcher]]

/-- The session of a host that registered `on_exit` to destroy it. -/
def selfDestroying : State Unit := init () "" ⟨false, true, false, false, false⟩ 0

theorem exit_drop_deadlock_destroyInExit : ∃ s,
    (machine blank).run selfDestroying destroyInExit = some s ∧ s.drop ≠ .returned ∧
      ∃ s', (machine blank).Steps (fun a _ => a.thread ≠ none) s s' ∧
        ((s'.drop = .joinPump ∧ s'.pump ≠ .done) ∨
          (s'.drop = .joinReader ∧ s'.reader ≠ .done)) ∧ Deadlocked blank s' := by
  have hmeets : (machine blank).Meets (fun a s => StrictEof a s ∧ ExitDrop a s)
      selfDestroying destroyInExit := by
    decide +kernel
  have htest : ((machine blank).run selfDestroying destroyInExit).any
      (fun s => decide (s.drop = .storeAlive)) = true := by
    decide +kernel
  obtain ⟨s, hrun, hreach, hs⟩ :=
    Lts.Machine.exists_reachable selfDestroying destroyInExit (init_Init _ _ _ _) hmeets htest
  have hd : s.drop = .storeAlive := of_decide_eq_true hs
  exact ⟨s, hrun, exit_drop_deadlock blank hreach (by simp [hd])⟩

/-- `Drop` joins a reader that waits for the frame below it. -/
theorem held_pty_deadlock (hd : s.drop = .joinReader) (hon : s.dropper = some .watcher)
    (hw : s.watcher = .inCall) (hp : s.pump = .done) (hr : s.reading) :
    Deadlocked advance s := by
  have hread : s.reader = .readFile := hr.1
  refine ⟨⟨by simp [hd], by simp [hd]⟩, ?_⟩
  refine Lts.stuck_of_closed (S := fun t => t = .drop ∨ t = .reader ∨ t = .watcher) ?_ ?_
    (.inl rfl)
  · rintro t u (rfl | rfl | rfl) hwait <;> cases u <;>
      simp_all [State.waitsFor, Pump.holdsPty]
  · rintro t (rfl | rfl | rfl)
    · rintro ⟨a, ha, s', hs'⟩
      cases a <;> simp [Label.thread] at ha
      simp [step, dropStep, hd, hread] at hs'
    · exact reading_not_moves hr
    · rintro ⟨a, ha, s', hs'⟩
      cases a <;> simp [Label.thread] at ha
      simp [step, watcherStep, hw, hon, hd] at hs'

/-- The rest of that run: `Drop` joins the writer and the pump, passes over the
watcher and waits for the reader. -/
def blockedInExit : List Label :=
  List.flatten [destroyInExit, List.replicate 5 .drop, [.writer, .drop, .drop],
    List.replicate 6 .pump, [.drop, .drop]]

theorem blockedInExit_deadlock : ¬ ∀ s,
    (machine blank).Reachable (fun a s => StrictEof a s ∧ ExitDrop a s) s →
      ¬ Deadlocked blank s := by
  intro hall
  have hmeets : (machine blank).Meets (fun a s => StrictEof a s ∧ ExitDrop a s)
      selfDestroying blockedInExit := by
    decide +kernel
  have htest : ((machine blank).run selfDestroying blockedInExit).any (fun s => decide
      (s.drop = .joinReader ∧ s.dropper = some .watcher ∧ s.watcher = .inCall ∧
        s.pump = .done ∧ s.reader = .readFile ∧ s.unread = [] ∧ s.atEof = false)) = true := by
    decide +kernel
  obtain ⟨s, -, hreach, hs⟩ :=
    Lts.Machine.exists_reachable selfDestroying blockedInExit (init_Init _ _ _ _) hmeets htest
  rcases of_decide_eq_true hs with ⟨hd, hon, hw, hp, hread, hunread, heof⟩
  exact hall s hreach (held_pty_deadlock hd hon hw hp ⟨hread, hunread, heof⟩)

end RataShell.Session
