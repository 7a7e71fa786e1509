import RataShell.Session.Deadlock
import RataShell.Session.Exit
import RataShell.Session.Starts
import RataShell.Session.Stream

/-!
# The runs of one session

What the steps of one run and of the tail of its `start` keep, whatever other runs make
of the fields that they share.

* `Settled`: both threads have made their swap of `alive`; such a run changes neither
  that nor `exit_code` any more.
* `Live`: before its child ends a run has reported nothing.
-/

namespace RataShell.Starts

open Session (Callbacks Event)

variable {τ : Type}

/-! ## What a step of a run keeps -/

/-- What holds of a run whatever the other runs make of the shared fields. -/
structure RunInv (r : Session.State τ) : Prop where
  phases : Session.Phases { r with alive := false }
  taken : Session.Taken r
  reader : .eof ∈ r.sent → r.reader = .done

/-- Both threads that report the exit have made their swap of `alive`. -/
def Settled (r : Session.State τ) : Prop :=
  r.pump.afterSwap = true ∧ r.watcher.afterSwap = true

/-- The calls of `on_exit` made, and those that a thread is about to make. -/
def spent (r : Session.State τ) : Nat := r.pump.notifying + r.watcher.notifying + r.exitCalls

/-- The watcher has not seen the child end. -/
def Watching : Session.Watcher → Bool
  | .unspawned | .check | .poll | .nap _ => true
  | _ => false

/-- Before its child ends a run has seen no end of its output, and reports nothing. -/
structure Live (alive : Bool) (r : Session.State τ) : Prop where
  alive : r.start ≠ .storeAlive → alive = true
  drop : r.drop = .notStarted
  pty : r.start = .storeAlive ∨ r.start = .spawnPump ∨ r.start = .storePty ∨ r.pty = true
  output : r.outputClosed = false
  sent : .eof ∉ r.sent ∧ r.reader ≠ .send .eof
  pump : r.pump.sawEof = false
  watcher : Watching r.watcher = true

section Run

variable {advance : τ → List UInt8 → τ × List Event} {a : Session.Label}
  {r r' : Session.State τ} {sh : Shared τ}

theorem init_runInv (term : τ) (title : String) (cbs : Callbacks) (code : Int32) :
    RunInv (Session.init term title cbs code) where
  phases := Session.init_phases ⟨term, title, cbs, code, rfl⟩
  taken := Session.init_taken term title cbs code
  reader h := by simp [Session.init] at h

theorem RunInv.load (hr : RunInv r) (sh : Shared τ) : RunInv (sh.load r) where
  phases := ⟨fun _ => rfl, hr.phases.pump, hr.phases.watcher, hr.phases.drop, hr.phases.dropper,
    hr.phases.onPump, hr.phases.onWatcher⟩
  taken := ⟨hr.taken.sent, hr.taken.received, hr.taken.reader⟩
  reader := hr.reader

theorem RunInv.phases_of (hr : RunInv r) (halive : r.start = .storeAlive → r.alive = false) :
    Session.Phases r :=
  ⟨halive, hr.phases.pump, hr.phases.watcher, hr.phases.drop, hr.phases.dropper,
    hr.phases.onPump, hr.phases.onWatcher⟩

/-- What a step of a run does to the fields that others read: nothing, but for its own
thread's. -/
structure RunStep (a : Session.Label) (r r' : Session.State τ) : Prop where
  start : r'.start = r.start
  pty : r'.pty = r.pty
  drop : r'.drop = r.drop
  alive : r'.alive = r.alive ∨ r'.alive = false
  child : r'.child = none → r.child = none
  output : a ≠ .closeOutput → r'.outputClosed = r.outputClosed
  reader : (∀ n, a ≠ .reader n) → r'.reader = r.reader ∧ r'.sent = r.sent
  pump : a ≠ .pump → r'.pump = r.pump
  watcher : a ≠ .watcher → r'.watcher = r.watcher
  quiet : a ≠ .pump → a ≠ .watcher →
    r'.calls = r.calls ∧ r'.alive = r.alive ∧ r'.exit_code = r.exit_code
  ending : r.writer = .done ∨ [] ∈ r.wchan → r'.writer = .done ∨ [] ∈ r'.wchan

theorem pumpStep_runStep (h : Session.pumpStep advance r = some r') : RunStep .pump r r' := by
  have halive : r'.alive = r.alive ∨ r'.alive = false := by
    cases Session.pumpStep_move h <;> simp [Session.State.advance]
  have hsentinel := Session.pumpStep_sentinel h
  rcases Session.pumpStep_frame h with ⟨_, _, _, _, _, _, _, _, _, _, _, _, _, _, rfl⟩
  exact ⟨rfl, rfl, rfl, halive, id, fun _ => rfl, fun _ => ⟨rfl, rfl⟩, fun hne => absurd rfl hne,
    fun _ => rfl, fun hne => absurd rfl hne, fun hend => hend.imp id hsentinel⟩

theorem watcherStep_runStep (h : Session.watcherStep r = some r') : RunStep .watcher r r' := by
  have halive : r'.alive = r.alive ∨ r'.alive = false := by
    cases Session.watcherStep_move h <;> simp
  rcases Session.watcherStep_frame h with ⟨_, _, _, _, rfl⟩
  exact ⟨rfl, rfl, rfl, halive, id, fun _ => rfl, fun _ => ⟨rfl, rfl⟩, fun _ => rfl,
    fun hne => absurd rfl hne, fun _ hne => absurd rfl hne, id⟩

theorem writerStep_runStep (h : Session.writerStep r = some r') : RunStep .writer r r' := by
  have hending : r.writer = .done ∨ [] ∈ r.wchan → r'.writer = .done ∨ [] ∈ r'.wchan := by
    rintro (hdone | hmem)
    · simp [Session.writerStep, hdone] at h
    · exact or_iff_not_imp_left.2 (Session.writerStep_sentinel h hmem)
  rcases Session.writerStep_frame h with ⟨_, _, _, rfl⟩
  exact ⟨rfl, rfl, rfl, .inl rfl, id, fun _ => rfl, fun _ => ⟨rfl, rfl⟩, fun _ => rfl,
    fun _ => rfl, fun _ _ => ⟨rfl, rfl, rfl⟩, hending⟩

theorem outside_runStep (hout : a.isOutside = true) (h : Session.step advance a r = some r') :
    RunStep a r r' := by
  have hpipes := Session.outside_pipes hout h
  have hchild : r'.child = none → r.child = none := by
    cases Session.outside_move hout h with
    | childExit hnone | childKilled _ hnone => exact fun _ => hnone
    | sendBytes =>
        rcases Session.sendBytes_frame _ r with ⟨_, hsend, -⟩
        rw [hsend]
        exact id
    | _ => exact id
  rcases Session.outside_frame hout h with ⟨_, _, _, _, _, _, rfl⟩
  exact ⟨rfl, rfl, rfl, .inl rfl, hchild, hpipes.1, fun _ => ⟨rfl, rfl⟩, fun _ => rfl,
    fun _ => rfl, fun _ _ => ⟨rfl, rfl, rfl⟩, fun hend => hend.imp id (hpipes.2 [])⟩

theorem step_run (h : Session.step advance a r = some r') (ha : inRun a = true) :
    RunStep a r r' := by
  cases a with
  | reader n =>
      rcases Session.readerStep_frame h with ⟨_, _, _, _, rfl⟩
      exact ⟨rfl, rfl, rfl, .inl rfl, id, fun _ => rfl, fun hne => absurd rfl (hne n), fun _ => rfl,
        fun _ => rfl, fun _ _ => ⟨rfl, rfl, rfl⟩, id⟩
  | pump => exact pumpStep_runStep h
  | watcher => exact watcherStep_runStep h
  | writer => exact writerStep_runStep h
  | start | drop | beginDrop => simp [inRun] at ha
  | _ => exact outside_runStep rfl h

/-- Only the reader sends an `Eof`, and ends. -/
theorem readerStep_eof {n : Nat} (h : Session.readerStep n r = some r')
    (hr : .eof ∈ r.sent → r.reader = .done) : .eof ∈ r'.sent → r'.reader = .done := by
  cases Session.readerStep_move h with
  | sendEof | gone => exact fun _ => rfl
  | sendBytes hread =>
      intro hmem
      rw [List.mem_append] at hmem
      rcases hmem with hmem | hmem
      · rw [hr hmem] at hread
        cases hread
      · cases List.mem_singleton.1 hmem
  | readEof hread | readBytes hread =>
      intro hmem
      rw [hr hmem] at hread
      cases hread

theorem RunInv.run (h : Session.step advance a r = some r') (ha : inRun a = true)
    (hr : RunInv r) (halive : r.start = .storeAlive → r.alive = false) : RunInv r' := by
  have hphases := hr.phases_of halive
  have hphases' := Session.step_phases h hphases
  refine ⟨⟨fun _ => rfl, hphases'.pump, hphases'.watcher, hphases'.drop, hphases'.dropper,
    hphases'.onPump, hphases'.onWatcher⟩, Session.step_taken h hphases hr.taken, ?_⟩
  by_cases hread : ∃ n, a = .reader n
  · rcases hread with ⟨n, rfl⟩
    exact readerStep_eof h hr.reader
  · have hsame := (step_run h ha).reader (by simpa using hread)
    rw [hsame.1, hsame.2]
    exact hr.reader

theorem RunInv.start (h : Session.startStep r = some r') (hr : RunInv r)
    (halive : r.start = .storeAlive → r.alive = false) : RunInv r' := by
  have hphases := hr.phases_of halive
  have hstep : Session.step (fun t _ => (t, [])) .start r = some r' := h
  have hphases' := Session.step_phases hstep hphases
  have htaken := Session.step_taken hstep hphases hr.taken
  have hreader := hr.reader
  rcases Session.startStep_frame h with ⟨_, _, _, _, _, _, rfl⟩
  exact ⟨⟨fun _ => rfl, hphases'.pump, hphases'.watcher, hphases'.drop, hphases'.dropper,
    hphases'.onPump, hphases'.onWatcher⟩, htaken, hreader⟩

/-! ## Before and after the report of the exit -/

/-- The pump swaps `alive` only after an `Eof`. -/
theorem sawEof_of_afterSwap {p : Session.Pump τ} (h : p.afterSwap = true) : p.sawEof = true := by
  cases p with
  | call c k | inCall k => cases k <;> first | rfl | cases h
  | _ => first | rfl | cases h

/-- The reader of a settled run has ended: its pump took the `Eof`. -/
theorem RunInv.reader_done (hr : RunInv r) (hs : Settled r) : r.reader = .done := by
  have hmem := hr.taken.eof_received.2 (sawEof_of_afterSwap hs.1)
  refine hr.reader ?_
  rw [hr.taken.sent]
  exact List.mem_append_left _ hmem

/-- A run that is settled stays so, leaves `alive` and `exit_code`, and has no more
calls of `on_exit` to make. -/
structure Calm (r r' : Session.State τ) : Prop where
  settled : Settled r'
  alive : r'.alive = r.alive
  exit_code : r'.exit_code = r.exit_code
  spent : spent r' ≤ spent r

theorem pumpStep_afterSwap (h : Session.pumpStep advance r = some r')
    (hs : r.pump.afterSwap = true) :
    r'.pump.afterSwap = true ∧ r'.alive = r.alive ∧ r'.exit_code = r.exit_code := by
  cases Session.pumpStep_move h with
  | notifyExit hp => exact ⟨by simp, rfl, rfl⟩
  | @call c k hp =>
      rw [hp] at hs
      refine ⟨?_, rfl, rfl⟩
      cases k <;> exact hs
  | @inCall k hp _ =>
      rw [hp] at hs
      refine ⟨?_, rfl, rfl⟩
      cases k <;> first | rfl | cases hs
  | advance hp => rcases hp with hp | hp <;> simp [hp, Session.Pump.afterSwap] at hs
  | _ => simp_all [Session.Pump.afterSwap]

theorem watcherStep_afterSwap (h : Session.watcherStep r = some r')
    (hs : r.watcher.afterSwap = true) :
    r'.watcher.afterSwap = true ∧ r'.alive = r.alive ∧ r'.exit_code = r.exit_code := by
  cases Session.watcherStep_move h with
  | notifyExit | notifyNone | call | inCall => exact ⟨rfl, rfl, rfl⟩
  | _ => simp_all [Session.Watcher.afterSwap]

/-- Where `start` and `alive` stay, the tokens are the calls of `on_exit`. -/
theorem spent_le (hstart : r'.start = r.start) (halive : r'.alive = r.alive)
    (htokens : r'.tokens ≤ r.tokens) : spent r' ≤ spent r := by
  simp only [Session.State.tokens, hstart, halive] at htokens
  simp only [spent]
  omega

theorem step_calm (h : Session.step advance a r = some r') (ha : inRun a = true)
    (hs : Settled r) : Calm r r' := by
  have hrun := step_run h ha
  -- only these two threads store `alive` or `exit_code`, and only before their swap
  by_cases hpump : a = .pump
  · subst hpump
    rcases pumpStep_afterSwap h hs.1 with ⟨hswap, halive, hcode⟩
    refine ⟨⟨hswap, ?_⟩, halive, hcode, spent_le hrun.start halive (Session.pumpStep_tokens h).1⟩
    rw [hrun.watcher (by simp)]
    exact hs.2
  · by_cases hwatcher : a = .watcher
    · subst hwatcher
      rcases watcherStep_afterSwap h hs.2 with ⟨hswap, halive, hcode⟩
      refine ⟨⟨?_, hswap⟩, halive, hcode,
        spent_le hrun.start halive (Session.watcherStep_tokens h).1⟩
      rw [hrun.pump hpump]
      exact hs.1
    · rcases hrun.quiet hpump hwatcher with ⟨hcalls, halive, hcode⟩
      refine ⟨?_, halive, hcode, ?_⟩
      · rw [Settled, hrun.pump hpump, hrun.watcher hwatcher]
        exact hs
      · rw [spent, spent, hrun.pump hpump, hrun.watcher hwatcher, Session.State.exitCalls, hcalls]
        exact le_rfl

/-- Without an `Eof` the pump takes no `Eof`, and leaves `alive`. -/
theorem pumpStep_live (h : Session.pumpStep advance r = some r') (hinv : RunInv r)
    (hsent : .eof ∉ r.sent) (hsaw : r.pump.sawEof = false) :
    r'.pump.sawEof = false ∧ r'.alive = r.alive := by
  constructor
  · -- an `Eof` that it takes was sent
    rcases Session.pumpStep_received h with
      ⟨-, -, hsame⟩ | ⟨m, hchan, -, -, hsaw'⟩ | ⟨hp, hc, hgone⟩
    · rw [hsame, hsaw]
    · rw [hsaw', decide_eq_false_iff_not]
      rintro rfl
      refine hsent ?_
      rw [hinv.taken.sent, hchan]
      simp
    · rw [hinv.taken.not_disconnected hp hc] at hgone
      cases hgone
  · cases Session.pumpStep_move h with
    | swapWon hp _ | swapLost hp _ =>
        rw [hp] at hsaw
        cases hsaw
    | _ => rfl

/-- While the child runs and `alive` is up the watcher goes on watching. -/
theorem watcherStep_live (h : Session.watcherStep r = some r') (hchild : r.child = none)
    (halive : r.alive = true) (hw : Watching r.watcher = true) :
    Watching r'.watcher = true ∧ r'.alive = r.alive := by
  cases Session.watcherStep_move h with
  | checkDown _ hdown | napDown _ hdown =>
      rw [halive] at hdown
      cases hdown
  | pollEnded _ hcode => simp [Session.State.tryExitCode, hchild] at hcode
  | storeCode hp | swapWon hp _ | swapLost hp _ | notifyExit hp _ | notifyNone hp _ | call hp
  | inCall hp _ =>
      rw [hp] at hw
      cases hw
  | _ => exact ⟨rfl, rfl⟩

theorem readerStep_live {n : Nat} (h : Session.readerStep n r = some r')
    (hclosed : r.closed = false) (houtput : r.outputClosed = false) (hdrop : r.drop = .notStarted)
    (hsent : .eof ∉ r.sent ∧ r.reader ≠ .send .eof) :
    .eof ∉ r'.sent ∧ r'.reader ≠ .send .eof := by
  cases Session.readerStep_move h with
  | readEof _ heof => simp [Session.State.atEof, hclosed, houtput] at heof
  | readBytes => exact ⟨hsent.1, by simp⟩
  | sendBytes => exact ⟨by simpa using hsent.1, by simp⟩
  | sendEof hr => exact absurd hr hsent.2
  | gone _ hgone => simp [Session.State.receiversGone, hdrop] at hgone

theorem Live.closed {alive : Bool} (hl : Live alive r) : r.closed = false := by
  rcases hl.pty with hst | hst | hst | hpty
  · simp [Session.State.closed, Session.Start.holdsPty, hst]
  · simp [Session.State.closed, Session.Start.holdsPty, hst]
  · simp [Session.State.closed, Session.Start.holdsPty, hst]
  · simp [Session.State.closed, hpty]

/-- A live run stays so until its child ends. -/
theorem Live.run (h : Session.step advance a r = some r') (ha : inRun a = true)
    (hout : a ≠ .closeOutput) (hinv : RunInv r) (hchild : r.child = none)
    (hl : Live r.alive r) : Live r'.alive r' := by
  have hrun := step_run h ha
  have hclosed : r.closed = false := hl.closed
  rcases hl with ⟨halive, hdrop, hpty, houtput, hsent, hpump, hwatcher⟩
  have hpty' : r'.start = .storeAlive ∨ r'.start = .spawnPump ∨ r'.start = .storePty ∨
      r'.pty = true := by
    rwa [hrun.start, hrun.pty]
  have houtput' : r'.outputClosed = false := by rw [hrun.output hout, houtput]
  have hdrop' : r'.drop = .notStarted := by rw [hrun.drop, hdrop]
  by_cases hp : a = .pump
  · subst hp
    rcases pumpStep_live h hinv hsent.1 hpump with ⟨hpump', halive'⟩
    have hreader := hrun.reader (by simp)
    have hwatcher' := hrun.watcher (by simp)
    refine ⟨?_, hdrop', hpty', houtput', ?_, hpump', ?_⟩
    · rwa [hrun.start, halive']
    · rwa [hreader.1, hreader.2]
    · rwa [hwatcher']
  · rw [← hrun.pump hp] at hpump
    by_cases hw : a = .watcher
    · subst hw
      have hreader := hrun.reader (by simp)
      -- a watcher that moves is spawned, so that `alive` is stored
      have hspawned : r.start ≠ .storeAlive := by
        intro hst
        have hnone := hinv.phases.watcher.2 (.inl hst)
        have hnone' : r.watcher = .unspawned := hnone
        simp [Session.step, Session.watcherStep, hnone'] at h
      rcases watcherStep_live h hchild (halive hspawned) hwatcher with ⟨hwatcher', halive'⟩
      refine ⟨?_, hdrop', hpty', houtput', ?_, hpump, hwatcher'⟩
      · rwa [hrun.start, halive']
      · rwa [hreader.1, hreader.2]
    · have hquiet := hrun.quiet hp hw
      refine ⟨by rwa [hrun.start, hquiet.2.1], hdrop', hpty', houtput', ?_, hpump,
        by rwa [hrun.watcher hw]⟩
      by_cases hread : ∃ n, a = .reader n
      · rcases hread with ⟨n, rfl⟩
        exact readerStep_live h hclosed houtput hdrop hsent
      · have hreader := hrun.reader (by simpa using hread)
        rwa [hreader.1, hreader.2]

/-- A step of the tail of `start` keeps a run live; it raises `alive` first. -/
theorem Live.start (h : Session.startStep r = some r') (hl : Live r.alive r) :
    Live r'.alive r' := by
  rcases hl with ⟨halive, hdrop, hpty, houtput, hsent, hpump, hwatcher⟩
  cases Session.startStep_move h with
  | storeAlive hst => exact ⟨fun _ => rfl, hdrop, .inr (.inl rfl), houtput, hsent, hpump, hwatcher⟩
  | spawnPump hst =>
      exact ⟨fun _ => halive (by simp [hst]), hdrop, .inr (.inr (.inl rfl)), houtput, hsent, rfl,
        hwatcher⟩
  | storePty hst =>
      exact ⟨fun _ => halive (by simp [hst]), hdrop, .inr (.inr (.inr rfl)), houtput, hsent, hpump,
        hwatcher⟩
  | spawnWatcher hst =>
      have hstored : r.pty = true := by simpa [hst] using hpty
      exact ⟨fun _ => halive (by simp [hst]), hdrop, .inr (.inr (.inr hstored)), houtput, hsent,
        hpump, rfl⟩
  | storeHandles hst =>
      have hstored : r.pty = true := by simpa [hst] using hpty
      exact ⟨fun _ => halive (by simp [hst]), hdrop, .inr (.inr (.inr hstored)), houtput, hsent,
        hpump, hwatcher⟩

end Run

end RataShell.Starts
