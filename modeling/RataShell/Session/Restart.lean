import Mathlib.Data.Prod.Lex
import RataShell.Session.Stages

/-!
# A session that is started again

One thread of the host calls `start` any number of times, while the threads of earlier
runs are still there. Nothing in `alive` says which run it is about.

* `disturbed`: a watcher that sleeps while the pump reports the exit of its child finds
  `alive` up again, and reports the exit a second time, for the new run.
* `undisturbed`: where `alive` is stored only once all earlier runs are settled, no run
  disturbs a later one and the new `start` returns.
-/

namespace RataShell.Starts

variable {τ : Type}

/-! ## What the host relies on -/

/-- The call of `start` can return `Ok` by its own steps and those of one writer. -/
def CanReturn (advance : τ → List UInt8 → τ × List Session.Event) (s : State Unit τ) : Prop :=
  ∃ j s', (machine Unit advance).Steps (fun a _ => a = .start () ∨ a = .run j .writer) s s' ∧
    s'.calls () = .idle ∧ s'.results = s.results ++ [((), .ok ())]

/-- The runs leave each other alone. -/
structure Undisturbed (advance : τ → List UInt8 → τ × List Session.Event)
    (s : State Unit τ) : Prop where
  /-- Once a later run has stored `alive` the threads of an earlier one leave it and
  `exit_code`, and have no more calls of `on_exit` to make than they had. -/
  old : ∀ (i j : Nat) (r q : Session.State τ), i < j → s.runs[i]? = some r →
    s.runs[j]? = some q → q.start ≠ .storeAlive → ∀ a s', step advance (.run i a) s = some s' →
    s'.shared.alive = s.shared.alive ∧ s'.shared.exit_code = s.shared.exit_code ∧
      ∃ r', s'.runs[i]? = some r' ∧ spent r' ≤ spent r
  /-- `alive` is up until the child of the newest run ends. -/
  alive : ∀ r ∈ s.runs.getLast?, r.start ≠ .storeAlive → r.child = none → s.shared.alive = true
  once : ∀ r ∈ s.runs, r.exitCalls ≤ 1
  /-- Up to its store of `alive` a call of `start` waits for nobody. -/
  enters : s.calls () = .loadAlive ∨ (s.calls ()).entering = true → (startStep () s).isSome = true
  /-- From there on it returns. -/
  returns : s.calls () ≠ .idle → s.calls () ≠ .loadAlive → (s.calls ()).entering = false →
    CanReturn advance s

/-! ## The condition -/

instance (r : Session.State τ) : Decidable (Settled r) :=
  inferInstanceAs (Decidable (_ ∧ _))

/-- The runs before the one for which the step stores `alive`. -/
def State.earlier {κ : Type} (s : State κ τ) : Label κ → List (Session.State τ)
  | .start k =>
      match s.calls k with
      | .storeAlive i => s.runs.take i
      | _ => []
  | _ => []

/-- `alive` is stored only once both threads that report the exit of an earlier run have
made their swap of it, or have ended; an output pipe ends only after its child has. -/
def StoresSettled : Lts.StepCond (State Unit τ) (Label Unit) := fun a s =>
  (∀ r ∈ s.earlier a, Settled r) ∧ EndsAfterChild a s

instance (a : Label Unit) (s : State Unit τ) : Decidable (StoresSettled a s) :=
  inferInstanceAs (Decidable (_ ∧ _))

/-! ## The invariant -/

/-- The runs, where the call of `start` is, and who has the lock of the options. -/
structure Inv (s : State Unit τ) : Prop where
  runs : Runs s.shared.alive s.runs
  stage : Stage s (s.calls ())
  locked : s.optionsLocked = true → s.calls () = .spawn

section Restart

variable {advance : τ → List UInt8 → τ × List Session.Event} {s s' : State Unit τ}

theorem created_inv (sh : Shared τ) : Inv (created sh : State Unit τ) where
  runs := created_runs sh sh.alive
  stage := created_allReturned sh
  locked h := by simp [created] at h

theorem Inv.start (hs : Inv s) (h : startStep () s = some s')
    (hC : ∀ r ∈ s.earlier (.start ()), Settled r) : Inv s' := by
  have hframe := startStep_startFrame h
  have hnew : ∀ i, s.calls () = .storeAlive i →
      ∀ (j : Nat) (q : Session.State τ), j < i → s.runs[j]? = some q → Settled q := by
    intro i hcall j q hj hq
    refine hC q ?_
    simp only [State.earlier, hcall]
    exact List.mem_of_getElem? ((List.getElem?_take_of_lt hj).trans hq)
  have hstage := startStep_stage h hs.runs hs.stage hnew
  refine ⟨hstage.1, hstage.2, fun hlock => ?_⟩
  rcases hframe.locked hlock with hspawn | ⟨hlock, hne⟩
  · exact hspawn
  · exact absurd (hs.locked hlock) hne

theorem Inv.run {i : Nat} {a : Session.Label} (hs : Inv s) (ha : inRun a = true)
    (h : s.stepRun i (Session.step advance a) = some s')
    (hC : EndsAfterChild (.run i a) s) : Inv s' := by
  refine ⟨hs.runs.run h ha ?_, ?_, ?_⟩
  · rintro rfl r hr
    exact hC i rfl r hr
  · have hstage := hs.stage.run h ha
    rcases stepRun_eq h with ⟨r, r', -, -, rfl⟩
    exact hstage
  · rcases stepRun_eq h with ⟨r, r', -, -, rfl⟩
    exact hs.locked

theorem step_inv {a : Label Unit} (h : step advance a s = some s') (hC : StoresSettled a s)
    (hs : Inv s) : Inv s' := by
  cases step_move h with
  | call hcall =>
      have hstage := hs.stage
      rw [hcall] at hstage
      refine ⟨hs.runs, ?_, fun hlock => ?_⟩
      · rw [goto_calls]
        exact hstage
      · have hspawn := hs.locked hlock
        rw [hcall] at hspawn
        cases hspawn
  | start h => exact hs.start h hC.1
  | spawnFails hcall =>
      have hstage := hs.stage
      rw [hcall] at hstage
      refine ⟨hs.runs, ?_, fun hlock => by cases hlock⟩
      rw [reply_calls]
      exact hstage.2
  | run ha h => exact hs.run ha h hC.2

theorem reachable_inv (h : (machine Unit advance).Reachable StoresSettled s) : Inv s := by
  refine Lts.Machine.init_invariant Inv ?_ (fun _ _ _ hC hstep hs => step_inv hstep hC hs) h
  rintro _ ⟨sh, -, rfl⟩
  exact created_inv sh

/-! ## The new `start` returns -/

/-- What the writer of a run has still to do. -/
def writerWork (r : Session.State τ) : Nat :=
  2 * r.wchan.length + (match r.writer with | .writeFile _ => 1 | _ => 0)

theorem writerStep_work {r r' : Session.State τ} (h : Session.writerStep r = some r') :
    writerWork r' < writerWork r := by
  cases Session.writerStep_move h with
  | recvSentinel hw hc => simp [writerWork, hw, hc]
  | recvBytes hw hc =>
      simp only [writerWork, hw, hc, List.length_cons]
      omega
  | writeFile hw => simp [writerWork, hw]

theorem tail_isSome {i : Nat} {c : Call} {st : Session.Start} (hat : At s.runs i st)
    (hst : st ≠ .returned) : (s.tail () i c).isSome = true := by
  rcases hat with ⟨-, r, hr, rfl⟩
  have hload : ((s.shared.load r)).start = r.start := rfl
  cases hstart : r.start with
  | returned => exact absurd hstart hst
  | _ => simp [State.tail, State.stepRun, hr, Session.startStep, hload, hstart]

/-- Up to its store of `alive` a call of `start` waits for nobody. -/
theorem Inv.enters (hs : Inv s) (hcall : s.calls () = .loadAlive ∨ (s.calls ()).entering = true) :
    (startStep () s).isSome = true := by
  have hstage := hs.stage
  unfold startStep
  cases hc : s.calls () with
  | loadAlive =>
      dsimp only
      split <;> rfl
  | lockOptions =>
      have hfree : ¬ s.optionsLocked = true := by
        intro hlock
        have hspawn := hs.locked hlock
        rw [hc] at hspawn
        cases hspawn
      dsimp only
      rw [if_neg hfree]
      rfl
  | spawn => rfl
  | storeAlive i =>
      rw [hc] at hstage
      exact tail_isSome hstage.1 (by simp)
  | _ => simp [hc, Call.entering] at hcall

theorem storeWriter_isSome {i : Nat} (hat : At s.runs i .storeHandles) :
    (storeWriter () i s).isSome = true :=
  tail_isSome (s := { s with writer := some i, runs := s.runs.map dropHandles })
    (hat.map fun _ => rfl) (by simp)

/-- From its store of `alive` on `start` waits for the writer that it joins, and for
nobody else: the reader that it joins has ended. -/
theorem Inv.goes_on (hs : Inv s) (hidle : s.calls () ≠ .idle) (hload : s.calls () ≠ .loadAlive)
    (hentered : (s.calls ()).entering = false) : (startStep () s).isSome = true ∨
      ∃ j r, 2 < (s.calls ()).rank ∧ s.writer = some j ∧ s.runs[j]? = some r ∧
        (Session.writerStep (s.shared.load r)).isSome = true := by
  have hstage := hs.stage
  cases hc : s.calls () with
  | idle => exact absurd hc hidle
  | loadAlive => exact absurd hc hload
  | lockOptions | spawn | storeAlive => simp [hc, Call.entering] at hentered
  | spawnPump i | spawnWatcher i =>
      rw [hc] at hstage
      refine .inl ?_
      simp only [startStep, hc]
      exact tail_isSome hstage.1 (by simp)
  | storePty i =>
      rw [hc] at hstage
      refine .inl ?_
      simp only [startStep, hc]
      exact tail_isSome (s := { s with runs := s.runs.map dropPty })
        (hstage.1.map fun _ => rfl) (by simp)
  | storeReader i =>
      rw [hc] at hstage
      rcases hstage with ⟨⟨hi, q, hq, hst⟩, hreader, -⟩
      refine .inl ?_
      simp only [startStep, hc]
      cases hr : s.reader with
      | none => rfl
      | some j =>
          have hlt := hreader j hr
          have hj : j < s.runs.length := by omega
          have hget := List.getElem?_eq_getElem hj
          -- the reader to be joined is that of a settled run
          have hsettled := hs.runs.settled j i _ q hlt hget hq (by simp [hst])
          have hdone := (hs.runs.ok j _ hget).inv.reader_done hsettled
          simp [hget, hdone]
  | dropWriter i =>
      rw [hc] at hstage
      rcases hstage with ⟨hat, -, hwriter⟩
      refine .inl ?_
      simp only [startStep, hc]
      cases hw : s.writer with
      | none => exact storeWriter_isSome hat
      | some j =>
          have hlt := hwriter j hw
          have hj : j < s.runs.length := by
            have hi := hat.1
            omega
          simp [List.getElem?_eq_getElem hj]
  | joinWriter i =>
      rw [hc] at hstage
      rcases hstage with ⟨hat, -, -, j, r, hw, hr, hends⟩
      by_cases hdone : r.writer = .done
      · refine .inl ?_
        simp only [startStep, hc, hw, hr, hdone]
        exact storeWriter_isSome hat
      · have hmem := hends.resolve_left hdone
        refine .inr ⟨j, r, by simp [Call.rank], hw, hr, ?_⟩
        have hwriter : (s.shared.load r).writer = r.writer := rfl
        have hchan : (s.shared.load r).wchan = r.wchan := rfl
        cases hpoint : r.writer with
        | done => exact absurd hpoint hdone
        | writeFile buf => simp [Session.writerStep, hwriter, hpoint]
        | recv =>
            cases hlist : r.wchan with
            | nil => simp [hlist] at hmem
            | cons buf wchan =>
                cases buf <;> simp [Session.writerStep, hwriter, hchan, hpoint, hlist]
  | storePump i => exact .inl (by simp [startStep, hc])

/-- The call has stored `alive`, and has yet to return or has just returned `Ok`. -/
structure Returning (s₀ s : State Unit τ) : Prop where
  inv : Inv s
  entered : (s.calls ()).entering = false ∧ s.calls () ≠ .loadAlive
  writer : 2 < (s.calls ()).rank → s.writer = s₀.writer
  results : s.calls () ≠ .idle ∧ s.results = s₀.results ∨
    s.calls () = .idle ∧ s.results = s₀.results ++ [((), .ok ())]

theorem Returning.start {s₀ : State Unit τ} (hs : Returning s₀ s)
    (h : startStep () s = some s') : Returning s₀ s' := by
  have hframe := startStep_startFrame h
  rcases hs with ⟨hinv, ⟨hentered, hload⟩, hwriter, hresults⟩
  have hidle : s.calls () ≠ .idle := by
    intro hidle
    simp [startStep, hidle] at h
  refine ⟨hinv.start h ?_, hframe.entered hentered hload, fun hrank => ?_, ?_⟩
  · -- it is past its store
    intro r hr
    simp only [State.earlier] at hr
    split at hr
    · rename_i i hcall
      simp [hcall, Call.entering] at hentered
    · cases hr
  · exact (hframe.writer hrank).trans (hwriter (hrank.trans hframe.rank))
  · have hsame := (hresults.resolve_right fun hr => hidle hr.1).2
    rcases hframe.results with ⟨hgoes, hres⟩ | ⟨hend, ⟨hcall, -⟩ | ⟨i, -, hres⟩⟩
    · exact .inl ⟨hgoes, hres.trans hsame⟩
    · exact absurd hcall hload
    · exact .inr ⟨hend, by rw [hres, hsame]⟩

/-- A step of a writer changes the work of its own run only. -/
theorem Returning.writer_step {s₀ : State Unit τ} {j : Nat} (hs : Returning s₀ s)
    (h : step advance (.run j .writer) s = some s') :
    Returning s₀ s' ∧ s'.calls = s.calls ∧ ∃ r r', s.runs[j]? = some r ∧ s'.runs[j]? = some r' ∧
      writerWork r' < writerWork r := by
  cases step_move h with
  | run ha h =>
      have hinv := hs.inv.run ha h fun i hi => by cases hi
      rcases stepRun_eq h with ⟨r, r', hr, hr', rfl⟩
      have hwork : writerWork r' < writerWork (s.shared.load r) := writerStep_work hr'
      exact ⟨⟨hinv, hs.entered, hs.writer, hs.results⟩, rfl, r, r', hr,
        List.getElem?_set_self (lt_length hr), hwork⟩

/-- What is left to do until `start` returns. -/
def remaining (j : Nat) (s : State Unit τ) : Nat ×ₗ Nat :=
  toLex ((s.calls ()).rank, (s.runs[j]?.map writerWork).getD 0)

theorem Inv.returns (hs : Inv s) (hidle : s.calls () ≠ .idle) (hload : s.calls () ≠ .loadAlive)
    (hentered : (s.calls ()).entering = false) : CanReturn advance s := by
  -- the call goes down in rank, and where it waits the writer it joins has less to do
  let j := s.writer.getD 0
  have hquiet := Lts.Machine.exists_quiescent (M := machine Unit advance)
    (T := fun a => a = .start () ∨ a = .run j .writer) (I := Returning s)
    wellFounded_lt (remaining j) (s := s) ?_
    ⟨hs, ⟨hentered, hload⟩, fun _ => rfl, .inl ⟨hidle, rfl⟩⟩
  · rcases hquiet with ⟨s', hsteps, hret, hnone⟩
    refine ⟨j, s', hsteps, ?_⟩
    rcases hret.results with ⟨hgoes, -⟩ | hend
    · exfalso
      have hstart : startStep () s' = none := hnone _ (.inl rfl)
      rcases hret.inv.goes_on hgoes hret.entered.2 hret.entered.1 with hsome |
        ⟨i, r, hrank, hw, hr, hsome⟩
      · simp [hstart] at hsome
      · have hi : i = j := by
          have hsame := hret.writer hrank
          rw [hw] at hsame
          simp [j, ← hsame]
        subst hi
        have hwriter := hnone _ (.inr rfl)
        rcases Option.isSome_iff_exists.1 hsome with ⟨r', hr'⟩
        simp [machine, step, inRun, State.stepRun, hr, Session.step, hr'] at hwriter
    · exact hend
  · rintro a t t' (rfl | rfl) hstep hret
    · have hstart : startStep () t = some t' := hstep
      exact ⟨hret.start hstart, Prod.Lex.toLex_lt_toLex.2 (.inl (startStep_startFrame hstart).rank)⟩
    · rcases hret.writer_step hstep with ⟨hret', hcalls, r, r', hr, hr', hlt⟩
      refine ⟨hret', Prod.Lex.toLex_lt_toLex.2 (.inr ⟨by rw [hcalls], ?_⟩)⟩
      simpa [hr, hr'] using hlt

/-! ## No run disturbs a later one -/

/-- Once a later run has stored `alive` the threads of an earlier one are calm. -/
theorem Inv.old {i j : Nat} {r q : Session.State τ} {a : Session.Label} (hs : Inv s) (hij : i < j)
    (hr : s.runs[i]? = some r) (hq : s.runs[j]? = some q) (hst : q.start ≠ .storeAlive)
    (h : step advance (.run i a) s = some s') :
    s'.shared.alive = s.shared.alive ∧ s'.shared.exit_code = s.shared.exit_code ∧
      ∃ r', s'.runs[i]? = some r' ∧ spent r' ≤ spent r := by
  cases step_move h with
  | run ha h =>
      rcases stepRun_eq h with ⟨r₀, r', hr₀, hr', rfl⟩
      cases hr.symm.trans hr₀
      have hcalm := step_calm hr' ha (hs.runs.settled i j r q hij hr hq hst)
      exact ⟨hcalm.alive, hcalm.exit_code, r', List.getElem?_set_self (lt_length hr), hcalm.spent⟩

theorem Inv.alive_up (hs : Inv s) {r : Session.State τ} (hr : r ∈ s.runs.getLast?)
    (hst : r.start ≠ .storeAlive) (hchild : r.child = none) : s.shared.alive = true := by
  have hne : s.runs ≠ [] := by
    rintro hnil
    simp [hnil] at hr
  have hlen := List.length_pos_iff.2 hne
  rw [List.getLast?_eq_getElem?] at hr
  have hnewest := (hs.runs.ok _ r hr).newest (by omega)
  exact (hnewest.live hchild).alive hst

theorem undisturbed (advance : τ → List UInt8 → τ × List Session.Event) {s : State Unit τ}
    (h : (machine Unit advance).Reachable StoresSettled s) : Undisturbed advance s := by
  have hs := reachable_inv h
  constructor
  · intro i j r q hij hr hq hst a s' hstep
    exact hs.old hij hr hq hst hstep
  · intro r hr hst hchild
    exact hs.alive_up hr hst hchild
  · intro r hr
    rcases List.getElem?_of_mem hr with ⟨i, hi⟩
    have hspent := (hs.runs.ok i r hi).spent
    rw [spent] at hspent
    omega
  · exact hs.enters
  · exact hs.returns

/-- Nothing is registered but `on_exit`. -/
def exitOnly : Shared Unit := ⟨false, 0, ⟨false, true, false, false, false⟩, (), "", []⟩

theorem exitOnly_init : (machine Unit Session.blank).Init (created exitOnly) :=
  ⟨exitOnly, rfl, rfl⟩

/-- A whole call of `start`, on a session with no handles. -/
def firstStart : List (Label Unit) := .call () :: List.replicate 10 (.start ())

/-- The child of the first run ends while its watcher sleeps, and the pump reports it. -/
def firstExit : List (Label Unit) :=
  [.run 0 .watcher, .run 0 .watcher, .run 0 (.childExit 7), .run 0 .closeOutput,
    .run 0 (.reader 0), .run 0 (.reader 0)] ++ List.replicate 9 (.run 0 .pump)

/-- The second `start`, up to its store of `alive`. -/
def secondStart : List (Label Unit) := .call () :: List.replicate 4 (.start ())

/-- The watcher of the first run wakes up before the second `start`. -/
theorem undisturbed_awake : ∃ s, (machine Unit Session.blank).run (created exitOnly)
      (firstStart ++ firstExit ++ [.run 0 .watcher] ++ secondStart) = some s ∧
    s.shared.alive = true ∧ Undisturbed Session.blank s := by
  have hmeets : (machine Unit Session.blank).Meets StoresSettled (created exitOnly)
      (firstStart ++ firstExit ++ [.run 0 .watcher] ++ secondStart) := by
    decide +kernel
  have htest : ((machine Unit Session.blank).run (created exitOnly)
      (firstStart ++ firstExit ++ [.run 0 .watcher] ++ secondStart)).any
      (fun s => s.shared.alive) = true := by
    decide +kernel
  rcases Lts.Machine.exists_reachable (created exitOnly) _ exitOnly_init hmeets htest with
    ⟨s, hrun, hreach, hs⟩
  exact ⟨s, hrun, hs, undisturbed Session.blank hreach⟩

/-- It wakes up behind the second `start`, finds `alive` up, polls the old child and lowers
`alive`, with the new child running; then it calls `on_exit` once more for the old one. -/
theorem disturbed : ¬ ∀ s, (machine Unit Session.blank).Reachable EndsAfterChild s →
    Undisturbed Session.blank s := by
  intro hall
  have hmeets : (machine Unit Session.blank).Meets EndsAfterChild (created exitOnly)
      (firstStart ++ firstExit ++ secondStart ++ List.replicate 11 (.run 0 .watcher)) := by
    decide +kernel
  have htest : ((machine Unit Session.blank).run (created exitOnly)
      (firstStart ++ firstExit ++ secondStart ++ List.replicate 11 (.run 0 .watcher))).any
      (fun s => s.shared.alive = false ∧ s.runs.map (·.exitCalls) = [2, 0] ∧
        s.runs.getLast?.any fun r => r.start = .spawnPump ∧ r.child = none) = true := by
    decide +kernel
  rcases Lts.Machine.exists_reachable (created exitOnly) _ exitOnly_init hmeets htest with
    ⟨s, -, hreach, hs⟩
  rcases of_decide_eq_true hs with ⟨hdown, -, hlast⟩
  rcases (Option.any_eq_true _ _).1 hlast with ⟨r, hr, hrunning⟩
  rcases of_decide_eq_true hrunning with ⟨hst, hchild⟩
  have hup := (hall s hreach).alive r hr (by simp [hst]) hchild
  rw [hdown] at hup
  cases hup

end Restart

end RataShell.Starts
