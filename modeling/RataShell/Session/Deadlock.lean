import RataShell.Lib.Waiting
import RataShell.Session.Drop

/-!
# Deadlocks of `Drop`

`Drop` joins the pump, the watcher and the reader; the pump waits for the
reader's channel, the reader for the end of the output, and that, as ConPTY
has it, for the last `Arc<PtyHost>`, which the pump and the watcher own.

* `waitsFor`, `moves`: who waits for whom, and who has an enabled step.
* `drop_progress`: `Drop` on a host thread never deadlocks if its synthetic
  `Eof` finds room in the channel and the reader finds room for what it reads
  after the pump has taken an `Eof`.
* `lost_eof_deadlock`: without that room it does.
-/

namespace RataShell.Session

variable {τ : Type} {advance : τ → List UInt8 → τ × List Event} {s s' : State τ}

/-! ## Who waits for whom -/

/-- The threads of a session and the activation of `Drop`. -/
inductive Thread where
  | reader
  | pump
  | watcher
  | writer
  | drop
deriving DecidableEq, Repr

/-- The thread whose step a label is. -/
def Label.thread : Label → Option Thread
  | .reader _ => some .reader
  | .pump => some .pump
  | .watcher => some .watcher
  | .writer => some .writer
  | .drop => some .drop
  | _ => none

/-- `t` has an enabled step. -/
def State.moves (advance : τ → List UInt8 → τ × List Event) (s : State τ) (t : Thread) : Prop :=
  ∃ a, a.thread = some t ∧ ∃ s', step advance a s = some s'

/-- The reader's `ReadFile` finds nothing and the output has not ended. -/
def State.reading (s : State τ) : Prop := s.reader = .readFile ∧ s.unread = [] ∧ s.atEof = false

/-- What keeps a thread from moving, and who could change it: the thread that
is joined, the other end of a channel, an owner of the `Arc<PtyHost>`, the
`Drop` that runs inside the callback. -/
def State.waitsFor (s : State τ) : Thread → Thread → Prop
  | .drop, .writer => s.drop = .joinWriter ∧ s.writer ≠ .done
  | .drop, .pump => s.drop = .joinPump ∧ s.dropper ≠ some .pump ∧ s.pump ≠ .done
  | .drop, .watcher => s.drop = .joinWatcher ∧ s.dropper ≠ some .watcher ∧ s.watcher ≠ .done
  | .drop, .reader => s.drop = .joinReader ∧ s.reader ≠ .done
  | .pump, .reader => s.pump = .recv ∧ s.chan = []
  | .pump, .drop =>
      (s.pump = .recv ∧ s.chan = []) ∨ ((∃ k, s.pump = .inCall k) ∧ s.dropper = some .pump)
  | .reader, .pump =>
      (∃ ev, s.reader = .send ev ∧ channelCap ≤ s.chan.length) ∨
        (s.reading ∧ s.pump.holdsPty = true)
  | .reader, .watcher => s.reading ∧ s.watcher.holdsPty = true
  | .reader, .drop => s.reading ∧ s.pty = true
  | .watcher, .drop => s.watcher = .inCall ∧ s.dropper = some .watcher
  | .writer, .drop => s.writer = .recv ∧ s.wchan = []
  | .writer, .pump => s.writer = .recv ∧ s.wchan = []
  | _, _ => False

/-- `Drop` has begun and has not returned. -/
def State.Dropping (s : State τ) : Prop := s.drop ≠ .notStarted ∧ s.drop ≠ .returned

/-- `Drop` is running, and neither it nor any thread it transitively waits for
can move. -/
def Deadlocked (advance : τ → List UInt8 → τ × List Event) (s : State τ) : Prop :=
  s.Dropping ∧ Lts.Stuck s.waitsFor (s.moves advance) .drop

/-! ## Assumptions and conditions -/

/-- The output ends only once the pseudo console is closed. -/
def StrictEof : Lts.StepCond (State τ) Label := fun a _ => a ≠ .closeOutput

/-- `Drop` runs on a thread of the host's own. -/
def HostDrop : Lts.StepCond (State τ) Label := fun a _ =>
  match a with
  | .beginDrop on => on = .host
  | _ => True

/-- The synthetic `Eof` finds room in the channel, and so does what the reader
reads once the pump has taken an `Eof`. -/
def RoomToDrain : Lts.StepCond (State τ) Label := fun a s =>
  match a with
  | .drop => s.drop = .trySendEof → s.chan.length < channelCap
  | .reader _ => s.reader = .readFile → s.pump.sawEof = true → s.chan.length < channelCap
  | _ => True

instance (a : Label) (s : State τ) : Decidable (StrictEof a s) :=
  inferInstanceAs (Decidable (a ≠ .closeOutput))

instance (a : Label) (s : State τ) : Decidable (HostDrop a s) :=
  match a with
  | .beginDrop on => decEq on .host
  | .start | .reader _ | .pump | .watcher | .writer | .drop => isTrue trivial
  | .shellWrite _ | .closeOutput | .childExit _ | .childKilled => isTrue trivial
  | .terminate | .sendBytes _ | .setCallbacks _ | .setClipboardCallback _ => isTrue trivial

instance (a : Label) (s : State τ) : Decidable (RoomToDrain a s) :=
  match a with
  | .drop => inferInstanceAs (Decidable (s.drop = .trySendEof → s.chan.length < channelCap))
  | .reader _ =>
      inferInstanceAs (Decidable
        (s.reader = .readFile → s.pump.sawEof = true → s.chan.length < channelCap))
  | .start | .pump | .watcher | .writer | .beginDrop _ => isTrue trivial
  | .shellWrite _ | .closeOutput | .childExit _ | .childKilled => isTrue trivial
  | .terminate | .sendBytes _ | .setCallbacks _ | .setClipboardCallback _ => isTrue trivial

/-! ## Where an `Eof` comes from -/

/-- What holds while the output can end only at `ClosePseudoConsole`. -/
structure EofInv (s : State τ) : Prop where
  strict : s.outputClosed = false
  cap : s.chan.length ≤ channelCap
  reader : s.reader = .send .eof ∨ s.reader = .done → s.closed = true
  eof : .eof ∈ s.chan ∨ s.pump.sawEof = true → 5 ≤ s.drop.rank
  sentinel : 6 ≤ s.drop.rank → s.writer ≠ .done → [] ∈ s.wchan

theorem init_eofInv (h : Init s) : EofInv s := by
  rcases h with ⟨term, title, cbs, code, rfl⟩
  constructor <;> simp [init, Drop.rank, Pump.sawEof, channelCap]

theorem Pump.holdsPty_eq_false {p : Pump τ} :
    p.holdsPty = false ↔ p = .unspawned ∨ p = .done := by
  cases p <;> simp [Pump.holdsPty]

theorem Watcher.holdsPty_eq_false {w : Watcher} :
    w.holdsPty = false ↔ w = .unspawned ∨ w = .done := by
  cases w <;> simp [Watcher.holdsPty]

/-- Once nobody owns the `Arc<PtyHost>` the pump and the watcher are done. -/
theorem closed_iff (hph : Phases s) :
    s.closed = true ↔ s.start.holdsPty = false ∧ s.pty = false ∧ s.pump = .done ∧
      s.watcher = .done := by
  have hspawned : s.start.holdsPty = false → s.pump ≠ .unspawned ∧ s.watcher ≠ .unspawned := by
    intro hst
    rw [Ne, Ne, hph.pump, hph.watcher]
    cases hs : s.start <;> simp [hs, Start.holdsPty] at hst ⊢
  unfold State.closed
  constructor
  · intro h
    simp only [Bool.and_eq_true, Bool.not_eq_true', Pump.holdsPty_eq_false,
      Watcher.holdsPty_eq_false] at h
    rcases h with ⟨⟨⟨hst, hpty⟩, hp⟩, hw⟩
    rcases hspawned hst with ⟨hne, hne'⟩
    exact ⟨hst, hpty, hp.resolve_left hne, hw.resolve_left hne'⟩
  · rintro ⟨hst, hpty, hp, hw⟩
    simp [hst, hpty, hp, hw, Pump.holdsPty, Watcher.holdsPty]

/-- The pseudo console stays closed. -/
theorem step_closed {a : Label} (h : step advance a s = some s') (hph : Phases s)
    (hc : s.closed = true) : s'.closed = true := by
  have hph' := step_phases h hph
  rw [closed_iff hph] at hc
  rw [closed_iff hph']
  rcases hc with ⟨hst, hpty, hp, hw⟩
  cases a with
  | start =>
      cases startStep_move h with
      | storeHandles => exact ⟨rfl, hpty, hp, hw⟩
      | _ => simp_all [Start.holdsPty]
  -- a thread that is done has no step
  | pump => exact absurd hp (pumpStep_quiet h).2.2
  | watcher => exact absurd hw (watcherStep_quiet h).2.2
  | reader n =>
      rcases readerStep_frame h with ⟨_, _, _, _, rfl⟩
      exact ⟨hst, hpty, hp, hw⟩
  | writer =>
      rcases writerStep_frame h with ⟨_, _, _, rfl⟩
      exact ⟨hst, hpty, hp, hw⟩
  | drop =>
      have hpty' := (dropStep_writes h).1 hpty
      rcases dropStep_frame h with ⟨_, _, _, _, _, _, _, _, rfl⟩
      exact ⟨hst, hpty', hp, hw⟩
  | beginDrop on =>
      rcases beginDropStep_frame h with ⟨-, -, -, rfl⟩
      exact ⟨hst, hpty, hp, hw⟩
  | _ =>
      rcases outside_frame rfl h with ⟨_, _, _, _, _, _, rfl⟩
      exact ⟨hst, hpty, hp, hw⟩

/-- The writer takes one buffer at a time and ends at the sentinel. -/
theorem writerStep_sentinel (h : writerStep s = some s') (hmem : [] ∈ s.wchan) :
    s'.writer ≠ .done → [] ∈ s'.wchan := by
  cases writerStep_move h <;> simp_all

theorem pumpStep_sentinel (h : pumpStep advance s = some s') (hmem : [] ∈ s.wchan) :
    [] ∈ s'.wchan := by
  cases pumpStep_move h with
  | dispatchReply hp he hr => exact sendWriter_mem hmem
  | _ => exact hmem

theorem dropStep_sentinel (h : dropStep s = some s')
    (hsent : 6 ≤ s.drop.rank → s.writer ≠ .done → [] ∈ s.wchan) :
    6 ≤ s'.drop.rank → s'.writer ≠ .done → [] ∈ s'.wchan := by
  cases dropStep_move h with
  | sendSentinel =>
      intro _ hw
      have hlive : s.writer ≠ .done := hw
      simp [State.sendWriter, hlive]
  | _ => simp_all [Drop.rank]

theorem dropStep_eofInv (h : dropStep s = some s') (hph : Phases s) (hs : EofInv s) :
    EofInv s' := by
  have hrank := (dropStep_writes h).2.1
  have hsent' := dropStep_sentinel h hs.sentinel
  have hdrop : step (fun t _ => (t, [])) .drop s = some s' := h
  have hclosed : s.closed = true → s'.closed = true := step_closed hdrop hph
  have hcap := hs.cap
  by_cases ht : s.drop = .trySendEof
  · have hrank' : 5 ≤ s'.drop.rank := by
      rw [ht] at hrank
      exact hrank.ge
    refine ⟨?_, ?_, fun hr => hclosed (hs.reader ?_), fun _ => hrank', hsent'⟩ <;>
      simp only [dropStep, ht] at h <;> split at h <;> cases h
    · exact hs.strict
    · exact hs.strict
    · simp only [List.length_append, List.length_singleton]
      omega
    · exact hcap
    · exact hr
    · exact hr
  · have hchan := (dropStep_writes h).2.2 ht
    rcases dropStep_frame h with ⟨_, _, _, _, _, _, _, drop, rfl⟩
    have hchan' : _ = s.chan := hchan
    subst hchan'
    exact ⟨hs.strict, hs.cap, fun hr => hclosed (hs.reader hr),
      fun he => (hs.eof he).trans (by simp only [hrank]; omega), hsent'⟩

theorem readerStep_eofInv {n : Nat} (h : readerStep n s = some s') (hph : Phases s)
    (hj : Joined s) (hs : EofInv s) : EofInv s' := by
  have hread : step (fun t _ => (t, [])) (.reader n) s = some s' := h
  have hclosed := step_closed hread hph
  rcases hs with ⟨hstrict, hcap, hreader, heof, hsent⟩
  have hdone : s.closed = true → s.pump.sawEof = true := fun hc => by
    rw [((closed_iff hph).1 hc).2.2.1]
    rfl
  cases readerStep_move h with
  | readEof hr he =>
      -- the pipe is not broken, so only `ClosePseudoConsole` ends it
      have hc : s.closed = true := by
        simp only [State.atEof, hstrict, Bool.or_false, Bool.and_eq_true] at he
        exact he.2
      exact ⟨hstrict, hcap, fun _ => hclosed hc, heof, hsent⟩
  | readBytes hr hpos hlen => exact ⟨hstrict, hcap, by simp, heof, hsent⟩
  | sendBytes hr hroom =>
      refine ⟨hstrict, ?_, by simp, by simpa using heof, hsent⟩
      simp only [List.length_append, List.length_singleton]
      omega
  | sendEof hr hroom =>
      have hc := hreader (.inl hr)
      refine ⟨hstrict, ?_, fun _ => hclosed hc, fun _ => heof (.inr (hdone hc)), hsent⟩
      simp only [List.length_append, List.length_singleton]
      omega
  | gone hr hgone =>
      -- `Drop` has joined a reader that is still sending
      have hret : s.drop = .returned := by
        simp only [State.receiversGone, Bool.and_eq_true, beq_iff_eq] at hgone
        exact hgone.2
      rw [hj.reader (by simp [hret, Drop.rank])] at hr
      cases hr

theorem pumpStep_eofInv (h : pumpStep advance s = some s') (hph : Phases s) (hs : EofInv s) :
    EofInv s' := by
  have hclosed := step_closed (a := .pump) h hph
  rcases hs with ⟨hstrict, hcap, hreader, heof, hsent⟩
  have hchan := pumpStep_chan h
  have hsuffix := pumpStep_suffix h
  have hsent' := pumpStep_sentinel h
  have hgone : s.sendersGone = true → 5 ≤ s.drop.rank := by
    intro hgone
    simp only [State.sendersGone, Bool.and_eq_true, beq_iff_eq] at hgone
    simp [hgone.2, Drop.rank]
  rcases pumpStep_frame h with ⟨_, _, _, _, _, chan, _, pump, _, _, _, _, _, _, rfl⟩
  refine ⟨hstrict, hsuffix.length_le.trans hcap, fun hr => hclosed (hreader hr), ?_,
    fun hr hw => hsent' (hsent hr hw)⟩
  rintro (hmem | hsaw')
  · exact heof (.inl (hsuffix.subset hmem))
  · -- the pump has seen an end before, finds the senders gone or takes an `Eof`
    rcases hchan with ⟨-, hsaw | ⟨hg, -⟩⟩ | ⟨buf, -, -, hno⟩ | ⟨hc, -, -⟩
    · exact heof (.inr (hsaw.symm.trans hsaw'))
    · exact hgone hg
    · rw [hno] at hsaw'
      cases hsaw'
    · exact heof (.inl (by simp [hc]))

theorem step_eofInv {a : Label} (h : step advance a s = some s') (hC : StrictEof a s)
    (hph : Phases s) (hj : Joined s) (hs : EofInv s) : EofInv s' := by
  have hclosed := step_closed h hph
  rcases hs with ⟨hstrict, hcap, hreader, heof, hsent⟩
  cases a with
  | start =>
      rcases startStep_threads h with ⟨hp, -⟩
      rcases startStep_frame h with ⟨_, _, _, _, _, _, rfl⟩
      refine ⟨hstrict, hcap, fun hr => hclosed (hreader hr), ?_, hsent⟩
      rcases hp with rfl | rfl
      · exact heof
      · simpa [Pump.sawEof] using fun hmem => heof (.inl hmem)
  | reader n =>
      have hread : readerStep n s = some s' := h
      exact readerStep_eofInv hread hph hj ⟨hstrict, hcap, hreader, heof, hsent⟩
  | pump => exact pumpStep_eofInv h hph ⟨hstrict, hcap, hreader, heof, hsent⟩
  | watcher =>
      rcases watcherStep_frame h with ⟨_, _, _, _, rfl⟩
      exact ⟨hstrict, hcap, fun hr => hclosed (hreader hr), heof, hsent⟩
  | writer =>
      -- the writer takes the sentinel only to be done
      have hsent' := writerStep_sentinel h
      have hne : s.writer ≠ .done := by
        intro hdone
        simp [step, writerStep, hdone] at h
      rcases writerStep_frame h with ⟨_, _, _, rfl⟩
      exact ⟨hstrict, hcap, fun hr => hclosed (hreader hr), heof, fun hr => hsent' (hsent hr hne)⟩
  | drop => exact dropStep_eofInv h hph ⟨hstrict, hcap, hreader, heof, hsent⟩
  | beginDrop on =>
      rcases beginDropStep_frame h with ⟨-, hoff, -, rfl⟩
      refine ⟨hstrict, hcap, fun hr => hclosed (hreader hr), fun he => ?_, by simp [Drop.rank]⟩
      -- nothing has been joined before Drop begins
      have := heof he
      simp [hoff, Drop.rank] at this
  | closeOutput => exact absurd rfl hC
  | _ =>
      rcases outside_pipes rfl h with ⟨hopen, hmem⟩
      rcases outside_frame rfl h with ⟨_, _, _, _, _, _, rfl⟩
      exact ⟨(hopen hC).trans hstrict, hcap, fun hr => hclosed (hreader hr), heof,
        fun hr hw => hmem _ (hsent hr hw)⟩

theorem reachable_eofInv {C : Lts.StepCond (State τ) Label} (hC : ∀ a s, C a s → StrictEof a s)
    (h : (machine advance).Reachable C s) : EofInv s := by
  have hboth : Joined s ∧ EofInv s := by
    refine reachable_invariant (fun s => Joined s ∧ EofInv s) (fun s hs => ?_) ?_ h
    · exact ⟨init_joined hs, init_eofInv hs⟩
    · rintro a s s' hCa hstep hph ⟨hj, hs⟩
      exact ⟨step_joined hstep hph hj, step_eofInv hstep (hC a s hCa) hph hj hs⟩
  exact hboth.2

/-! ## Drop on a host thread -/

/-- What the runs that meet `HostDrop` and `RoomToDrain` keep. -/
structure DrainInv (s : State τ) : Prop where
  host : s.dropper ≠ some .pump ∧ s.dropper ≠ some .watcher
  eofSent : 5 ≤ s.drop.rank → s.pump.sawEof = false → .eof ∈ s.chan
  room : s.pump.sawEof = true → ∀ ev, s.reader = .send ev → s.chan.length < channelCap

theorem init_drainInv (h : Init s) : DrainInv s := by
  rcases h with ⟨term, title, cbs, code, rfl⟩
  constructor <;> simp [init, Drop.rank, Pump.sawEof]

theorem pumpStep_drainInv (h : pumpStep advance s = some s') (he : EofInv s) (hs : DrainInv s) :
    DrainInv s' := by
  have hchan := pumpStep_chan h
  rcases hs with ⟨hhost, heof, hroom⟩
  have hcap := he.cap
  rcases pumpStep_frame h with ⟨_, _, _, _, _, chan, _, pump, _, _, _, _, _, _, rfl⟩
  refine ⟨hhost, ?_, ?_⟩
  -- the message that is taken is no Eof, or it is kept in mind
  · intro hr hno
    rcases hchan with ⟨hc, hsaw | ⟨-, hdone⟩⟩ | ⟨buf, hc, hsaw, -⟩ | ⟨-, -, hsaw⟩
    · have hmem := heof hr (hsaw.symm.trans hno)
      exact hc ▸ hmem
    · have hdone' : pump = .done := hdone
      simp [hdone', Pump.sawEof] at hno
    · have hmem := heof hr hsaw
      simpa [hc] using hmem
    · rw [hsaw] at hno
      cases hno
  · intro hsaw' ev hr
    rcases hchan with ⟨hc, hsaw | ⟨hgone, -⟩⟩ | ⟨buf, -, -, hno⟩ | ⟨hc, -, -⟩
    · have hlen := hroom (hsaw.symm.trans hsaw') ev hr
      exact hc ▸ hlen
    · simp only [State.sendersGone, Bool.and_eq_true, beq_iff_eq] at hgone
      have hr' : s.reader = .send ev := hr
      rw [hgone.1] at hr'
      cases hr'
    · rw [hno] at hsaw'
      cases hsaw'
    · -- taking the `Eof` made room
      simp only [hc, List.length_cons] at hcap
      exact hcap

theorem dropStep_drainInv (h : dropStep s = some s') (hC : RoomToDrain .drop s)
    (he : EofInv s) (hs : DrainInv s) : DrainInv s' := by
  have hwrites := dropStep_writes h
  rcases hs with ⟨hhost, heof, hroom⟩
  by_cases ht : s.drop = .trySendEof
  · have hlen : s.chan.length < channelCap := hC ht
    -- until then no `Eof` was sent
    have hno : s.pump.sawEof ≠ true := by
      intro hsaw
      have hrank := he.eof (.inr hsaw)
      simp [ht, Drop.rank] at hrank
    simp only [dropStep, ht, hlen, if_true] at h
    cases h
    exact ⟨hhost, by simp, fun hsaw => absurd hsaw hno⟩
  · have hchan := hwrites.2.2 ht
    have hrank := hwrites.2.1
    rcases dropStep_frame h with ⟨_, _, _, chan, _, _, _, drop, rfl⟩
    have hchan' : chan = s.chan := hchan
    subst hchan'
    refine ⟨hhost, fun hr => heof ?_, hroom⟩
    have hr' : 5 ≤ drop.rank := hr
    have hne : s.drop.rank ≠ 4 := by
      intro h4
      cases hd : s.drop <;> simp_all [Drop.rank]
    simp only at hrank
    omega

theorem step_drainInv {a : Label} (h : step advance a s = some s') (hhost : HostDrop a s)
    (hC : RoomToDrain a s) (hph : Phases s) (he : EofInv s) (hs : DrainInv s) :
    DrainInv s' := by
  cases a with
  | start =>
      have hoff := startStep_off h hph
      rcases startStep_threads h with ⟨hp, -⟩
      rcases startStep_frame h with ⟨_, _, _, _, _, _, rfl⟩
      refine ⟨hs.host, by simp [hoff, Drop.rank], ?_⟩
      rcases hp with rfl | rfl
      · exact hs.room
      · simp [Pump.sawEof]
  | reader n =>
      cases readerStep_move h with
      -- a read that ends asks for room before it sends
      | readEof hr _ | readBytes hr _ _ =>
          exact ⟨hs.host, hs.eofSent, fun hsaw _ _ => hC hr hsaw⟩
      | sendBytes hr hroom | sendEof hr hroom =>
          exact ⟨hs.host, fun hr hno => List.mem_append_left _ (hs.eofSent hr hno), by simp⟩
      | gone hr hgone => exact ⟨hs.host, hs.eofSent, by simp⟩
  | pump => exact pumpStep_drainInv h he hs
  | watcher =>
      rcases watcherStep_frame h with ⟨_, _, _, _, rfl⟩
      exact ⟨hs.host, hs.eofSent, hs.room⟩
  | writer =>
      rcases writerStep_frame h with ⟨_, _, _, rfl⟩
      exact ⟨hs.host, hs.eofSent, hs.room⟩
  | drop => exact dropStep_drainInv h hC he hs
  | beginDrop on =>
      have hon : on = .host := hhost
      rcases beginDropStep_frame h with ⟨-, -, -, rfl⟩
      exact ⟨by simp [hon], by simp [Drop.rank], hs.room⟩
  | _ =>
      rcases outside_frame rfl h with ⟨_, _, _, _, _, _, rfl⟩
      exact ⟨hs.host, hs.eofSent, hs.room⟩

/-- A spawned pump moves unless it waits on an empty channel or runs `Drop`. -/
theorem pump_moves (hp : s.pump ≠ .unspawned) (hdone : s.pump ≠ .done)
    (hrecv : s.pump = .recv → s.chan ≠ []) (hon : s.dropper ≠ some .pump) :
    s.moves advance .pump := by
  refine ⟨.pump, rfl, ?_⟩
  cases hpc : s.pump with
  | recv =>
      cases hc : s.chan with
      | nil => exact absurd hc (hrecv hpc)
      | cons ev chan => cases ev <;> simp [step, pumpStep, hpc, hc]
  | tryRecv =>
      cases hc : s.chan with
      | nil => simp [step, pumpStep, hpc, hc]
      | cons ev chan => cases ev <;> simp [step, pumpStep, hpc, hc]
  | dispatch events saw_eof => cases events <;> simp [step, pumpStep, hpc]
  | unspawned => exact absurd hpc hp
  | done => exact absurd hpc hdone
  | _ => simp [step, pumpStep, hpc, hon]

/-- A spawned watcher moves unless it runs `Drop`. -/
theorem watcher_moves (hw : s.watcher ≠ .unspawned) (hdone : s.watcher ≠ .done)
    (hon : s.dropper ≠ some .watcher) : s.moves advance .watcher := by
  refine ⟨.watcher, rfl, ?_⟩
  cases hpc : s.watcher with
  | poll => cases htry : s.tryExitCode <;> simp [step, watcherStep, hpc, htry]
  | nap k => by_cases ha : s.alive = true <;> simp [step, watcherStep, hpc, ha]
  | unspawned => exact absurd hpc hw
  | done => exact absurd hpc hdone
  | _ => simp [step, watcherStep, hpc, hon]

/-- The writer moves while there is something to take. -/
theorem writer_moves (hdone : s.writer ≠ .done) (hmem : [] ∈ s.wchan) :
    s.moves advance .writer := by
  refine ⟨.writer, rfl, ?_⟩
  cases hpc : s.writer with
  | recv =>
      cases hc : s.wchan with
      | nil => simp [hc] at hmem
      | cons buf wchan => cases buf <;> simp [step, writerStep, hpc, hc]
  | writeFile buf => simp [step, writerStep, hpc]
  | done => exact absurd hpc hdone

/-- The reader moves once the pseudo console is closed, if a send has room. -/
theorem reader_moves (hdone : s.reader ≠ .done) (hclosed : s.closed = true)
    (hroom : ∀ ev, s.reader = .send ev → s.chan.length < channelCap) :
    s.moves advance .reader := by
  cases hpc : s.reader with
  | readFile =>
      cases hu : s.unread with
      | nil =>
          refine ⟨.reader 0, rfl, ?_⟩
          simp [step, readerStep, hpc, State.atEof, hu, hclosed]
      | cons b unread =>
          refine ⟨.reader 1, rfl, ?_⟩
          simp [step, readerStep, hpc, hu]
  | send ev =>
      refine ⟨.reader 0, rfl, ?_⟩
      by_cases hg : s.receiversGone = true <;> simp [step, readerStep, hpc, hg, hroom ev hpc]
  | done => exact absurd hpc hdone

/-- Outside its joins `Drop` moves by itself. -/
theorem drop_moves (hoff : s.drop ≠ .notStarted) (hret : s.drop ≠ .returned)
    (hw : s.drop = .joinWriter → s.writer = .done)
    (hp : s.drop = .joinPump → s.dropper = some .pump ∨ s.pump = .done)
    (hww : s.drop = .joinWatcher → s.dropper = some .watcher ∨ s.watcher = .done)
    (hr : s.drop = .joinReader → s.reader = .done) : s.moves advance .drop := by
  refine ⟨.drop, rfl, ?_⟩
  cases hd : s.drop with
  | notStarted => exact absurd hd hoff
  | returned => exact absurd hd hret
  | trySendEof => by_cases hl : s.chan.length < channelCap <;> simp [step, dropStep, hd, hl]
  | joinWriter => simp [step, dropStep, hd, hw hd]
  | joinPump => rcases hp hd with hon | hdone <;> simp [step, dropStep, *]
  | joinWatcher => rcases hww hd with hon | hdone <;> simp [step, dropStep, *]
  | joinReader => simp [step, dropStep, hd, hr hd]
  | _ => simp [step, dropStep, hd]

/-- The state of the session while `Drop` runs on a host thread with room to
drain: `Drop` moves, or the thread it joins does. -/
theorem drop_progress_of_inv (hph : Phases s) (hj : Joined s) (he : EofInv s) (hs : DrainInv s)
    (hoff : s.drop ≠ .notStarted) (hret : s.drop ≠ .returned) :
    Lts.Progress s.waitsFor (s.moves advance) .drop := by
  have hst : s.start = .returned := hph.drop hoff
  have hpump : s.pump ≠ .unspawned := by simp [Ne, hph.pump, hst]
  have hwatcher : s.watcher ≠ .unspawned := by simp [Ne, hph.watcher, hst]
  by_cases hw : s.drop = .joinWriter ∧ s.writer ≠ .done
  · -- the sentinel is on its way
    have hmem := he.sentinel (by simp [hw.1, Drop.rank]) hw.2
    exact .of_waits (u := .writer) hw (.of_moves (writer_moves hw.2 hmem))
  by_cases hp : s.drop = .joinPump ∧ s.pump ≠ .done
  · -- so is the synthetic `Eof`
    have hrecv : s.pump = .recv → s.chan ≠ [] := by
      intro hr hnil
      have hmem := hs.eofSent (by simp [hp.1, Drop.rank]) (by rw [hr]; rfl)
      simp [hnil] at hmem
    exact .of_waits (u := .pump) ⟨hp.1, hs.host.1, hp.2⟩
      (.of_moves (pump_moves hpump hp.2 hrecv hs.host.1))
  by_cases hww : s.drop = .joinWatcher ∧ s.watcher ≠ .done
  · exact .of_waits (u := .watcher) ⟨hww.1, hs.host.2, hww.2⟩
      (.of_moves (watcher_moves hwatcher hww.2 hs.host.2))
  by_cases hr : s.drop = .joinReader ∧ s.reader ≠ .done
  · -- pump and watcher are joined, so the pseudo console is closed
    have hrank : s.drop.rank = 10 := by simp [hr.1, Drop.rank]
    have hdone : s.pump = .done := hj.pump (by omega) hs.host.1
    have hclosed : s.closed = true := by
      rw [closed_iff hph]
      exact ⟨by rw [hst]; rfl, hj.pty (by omega), hdone, hj.watcher (by omega) hs.host.2⟩
    have hroom := hs.room (by rw [hdone]; rfl)
    exact .of_waits (u := .reader) hr (.of_moves (reader_moves hr.2 hclosed hroom))
  · refine .of_moves (drop_moves hoff hret ?_ ?_ ?_ ?_)
    · exact fun h => by_contra fun hne => hw ⟨h, hne⟩
    · exact fun h => .inr (by_contra fun hne => hp ⟨h, hne⟩)
    · exact fun h => .inr (by_contra fun hne => hww ⟨h, hne⟩)
    · exact fun h => by_contra fun hne => hr ⟨h, hne⟩

/-- `Drop` on a host thread never deadlocks as long as its `Eof`, and what the
reader reads after the pump has taken an `Eof`, find room in the channel. -/
theorem drop_progress (advance : τ → List UInt8 → τ × List Event) {s : State τ}
    (h : (machine advance).Reachable
      (fun a s => StrictEof a s ∧ HostDrop a s ∧ RoomToDrain a s) s)
    (hdropping : s.Dropping) : Lts.Progress s.waitsFor (s.moves advance) .drop := by
  have hinv : Joined s ∧ EofInv s ∧ DrainInv s := by
    refine reachable_invariant (fun s => Joined s ∧ EofInv s ∧ DrainInv s) (fun s hs => ?_) ?_ h
    · exact ⟨init_joined hs, init_eofInv hs, init_drainInv hs⟩
    · rintro a s s' ⟨hstrict, hhost, hroom⟩ hstep hph ⟨hj, he, hs⟩
      exact ⟨step_joined hstep hph hj, step_eofInv hstep hstrict hph hj he,
        step_drainInv hstep hhost hroom hph he hs⟩
  exact drop_progress_of_inv (reachable_phases h) hinv.1 hinv.2.1 hinv.2.2 hdropping.1 hdropping.2

/-- A reader whose `ReadFile` finds nothing does not move. -/
theorem reading_not_moves (hr : s.reading) : ¬ s.moves advance .reader := by
  rcases hr with ⟨hread, hunread, heof⟩
  rintro ⟨a, ha, s', hs'⟩
  cases a <;> simp [Label.thread] at ha
  rename_i n
  simp only [step, readerStep, hread, heof, hunread, List.length_nil, Nat.le_zero] at hs'
  split at hs'
  · cases hs'
  · rename_i hn
    simp [hn] at hs'

/-- `Drop` while the pump coalesces nothing: the channel has room throughout. -/
def roomyDrop : List Label :=
  List.flatten [List.replicate 5 .start, [.shellWrite [104, 105], .reader 2, .reader 0],
    [.beginDrop .host], List.replicate 5 .drop, [.writer, .drop, .drop]]

/-- The session of a host that registered nothing. -/
def bare : State Unit := init () "" .default 0

theorem drop_progress_roomyDrop : ∃ s, (machine blank).run bare roomyDrop = some s ∧
    s.drop = .joinPump ∧ Lts.Progress s.waitsFor (s.moves blank) .drop := by
  have hmeets : (machine blank).Meets
      (fun a s => StrictEof a s ∧ HostDrop a s ∧ RoomToDrain a s) bare roomyDrop := by
    decide +kernel
  have htest : ((machine blank).run bare roomyDrop).any
      (fun s => decide (s.drop = .joinPump)) = true := by
    decide +kernel
  obtain ⟨s, hrun, hreach, hs⟩ :=
    Lts.Machine.exists_reachable bare roomyDrop (init_Init _ _ _ _) hmeets htest
  have hd : s.drop = .joinPump := of_decide_eq_true hs
  exact ⟨s, hrun, hd, drop_progress blank hreach ⟨by simp [hd], by simp [hd]⟩⟩

/-- The synthetic `Eof` is lost: `Drop` joins a pump that waits for a reader
that waits for the pump to give up its `Arc<PtyHost>`. -/
theorem lost_eof_deadlock (hd : s.drop = .joinPump) (hon : s.dropper = some .host)
    (hp : s.pump = .recv) (hc : s.chan = []) (hr : s.reading) (hw : s.watcher = .done) :
    Deadlocked advance s := by
  have hread : s.reader = .readFile := hr.1
  refine ⟨⟨by simp [hd], by simp [hd]⟩, ?_⟩
  refine Lts.stuck_of_closed (S := fun t => t = .drop ∨ t = .pump ∨ t = .reader) ?_ ?_ (.inl rfl)
  · rintro t u (rfl | rfl | rfl) hwait <;> cases u <;>
      simp_all [State.waitsFor, Watcher.holdsPty]
  · rintro t (rfl | rfl | rfl)
    · rintro ⟨a, ha, s', hs'⟩
      cases a <;> simp [Label.thread] at ha
      simp [step, dropStep, hd, hon, hp] at hs'
    · rintro ⟨a, ha, s', hs'⟩
      cases a <;> simp [Label.thread] at ha
      simp [step, pumpStep, hp, hc, State.sendersGone, hd] at hs'
    · exact reading_not_moves hr

/-- The channel is full when `Drop` begins, so that its `Eof` is lost. -/
def fullDrop : List Label :=
  List.flatten [List.replicate 5 .start, [.shellWrite (List.replicate 65 46)],
    (List.replicate 64 [.reader 1, .reader 0]).flatten, [.reader 1, .beginDrop .host],
    List.replicate 5 .drop, [.writer, .drop, .drop], List.replicate 128 .pump, [.reader 0],
    List.replicate 7 .pump, [.watcher]]

theorem fullDrop_deadlock : ¬ ∀ s,
    (machine blank).Reachable (fun a s => StrictEof a s ∧ HostDrop a s) s → s.Dropping →
      Lts.Progress s.waitsFor (s.moves blank) .drop := by
  intro hall
  have hmeets : (machine blank).Meets (fun a s => StrictEof a s ∧ HostDrop a s) bare fullDrop := by
    decide +kernel
  have htest : ((machine blank).run bare fullDrop).any (fun s => decide (s.drop = .joinPump ∧
      s.dropper = some .host ∧ s.pump = .recv ∧ s.chan = [] ∧ s.reader = .readFile ∧
      s.unread = [] ∧ s.atEof = false ∧ s.watcher = .done)) = true := by
    decide +kernel
  obtain ⟨s, -, hreach, hs⟩ :=
    Lts.Machine.exists_reachable bare fullDrop (init_Init _ _ _ _) hmeets htest
  rcases of_decide_eq_true hs with ⟨hd, hon, hp, hc, hread, hunread, heof, hw⟩
  have hdead : Deadlocked blank s := lost_eof_deadlock hd hon hp hc ⟨hread, hunread, heof⟩ hw
  exact Lts.not_stuck_iff_progress.2 (hall s hreach hdead.1) hdead.2

end RataShell.Session
