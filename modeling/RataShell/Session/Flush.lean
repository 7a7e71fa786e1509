import RataShell.Session.Drop
import RataShell.Session.Writer

/-!
# What `Drop` flushes

`Drop` queues an empty buffer behind what waits for the writer and joins the writer
before it goes on.

* `step_openInv`: until then what has entered the channel is accounted for, also while
  `Drop` runs.
* `Flushed`, `step_flushed`: what has entered before the empty buffer is written or
  still in front of it.
* `destroy_flushes`: once the writer is joined everything that the calls were accepted
  with is written, and so are the replies up to the empty buffer, and nothing else.
-/

namespace RataShell.Writing

open Session

variable {ι τ : Type}

/-! ## Up to the empty buffer -/

section Open

variable {advance : τ → List UInt8 → τ × List Event} {s s' : State τ}
  {bufs : List (List UInt8)}

/-- `Drop` has not queued the empty buffer. -/
def Open (s : State τ) : Prop := s.drop.rank ≤ 5

/-- What is beside the writer, the pump, a send and the empty buffer leaves the queue
alone. -/
theorem step_queue_frame {a : Session.Label} (h : step advance a s = some s')
    (ha : isSend a = false) (hpump : a ≠ .pump) (hwriter : a ≠ .writer)
    (hsentinel : a = .drop → s.drop ≠ .sendSentinel) :
    s'.written = s.written ∧ s'.writer = s.writer ∧ s'.wchan = s.wchan ∧
      s'.replies = s.replies := by
  cases a with
  | pump => exact absurd rfl hpump
  | writer => exact absurd rfl hwriter
  | sendBytes bytes => cases ha
  | start =>
      rcases startStep_frame h with ⟨_, _, _, _, _, _, rfl⟩
      exact ⟨rfl, rfl, rfl, rfl⟩
  | reader n =>
      rcases readerStep_frame h with ⟨_, _, _, _, rfl⟩
      exact ⟨rfl, rfl, rfl, rfl⟩
  | watcher =>
      rcases watcherStep_frame h with ⟨_, _, _, _, rfl⟩
      exact ⟨rfl, rfl, rfl, rfl⟩
  | drop =>
      cases dropStep_move h with
      | sendSentinel hd => exact absurd hd (hsentinel rfl)
      | _ => exact ⟨rfl, rfl, rfl, rfl⟩
  | beginDrop on =>
      rcases beginDropStep_frame h with ⟨-, -, -, rfl⟩
      exact ⟨rfl, rfl, rfl, rfl⟩
  | _ =>
      cases outside_move rfl h
      all_goals exact ⟨rfl, rfl, rfl, rfl⟩

/-- `Drop` does not go back, and goes past the join of the writer only behind it. -/
theorem step_rank {a : Session.Label} (h : step advance a s = some s') :
    s.drop.rank ≤ s'.drop.rank ∧
      (7 ≤ s'.drop.rank → 7 ≤ s.drop.rank ∨ s.writer = .done) := by
  cases a with
  | start =>
      rcases startStep_frame h with ⟨_, _, _, _, _, _, rfl⟩
      exact ⟨le_rfl, .inl⟩
  | reader n =>
      rcases readerStep_frame h with ⟨_, _, _, _, rfl⟩
      exact ⟨le_rfl, .inl⟩
  | pump =>
      rcases pumpStep_frame h with ⟨_, _, _, _, _, _, _, _, _, _, _, _, _, _, rfl⟩
      exact ⟨le_rfl, .inl⟩
  | watcher =>
      rcases watcherStep_frame h with ⟨_, _, _, _, rfl⟩
      exact ⟨le_rfl, .inl⟩
  | writer =>
      rcases writerStep_frame h with ⟨_, _, _, rfl⟩
      exact ⟨le_rfl, .inl⟩
  | drop =>
      cases dropStep_move h with
      | joinWriter hd hw => exact ⟨by simp [hd, Drop.rank], fun _ => .inr hw⟩
      | _ => simp_all [Drop.rank]
  | beginDrop on =>
      rcases beginDropStep_frame h with ⟨-, hoff, -, rfl⟩
      simp [hoff, Drop.rank]
  | _ =>
      rcases outside_frame rfl h with ⟨_, _, _, _, _, _, rfl⟩
      exact ⟨le_rfl, .inl⟩

/-- A step of the session that is no send keeps the queue, with the replies it adds, up
to the empty buffer. -/
theorem step_open_queued {a : Session.Label} (h : step advance a s = some s')
    (ha : isSend a = false) (hopen : Open s') (hdispatched : Dispatched s)
    (hreply : ∀ e ∈ s.queued, e.reply ≠ some []) (hq : Queued s bufs) :
    ∃ new, s'.replies = s.replies ++ new ∧ Queued s' (bufs ++ new) := by
  by_cases hpump : a = .pump
  · subst hpump
    exact pumpStep_queued h hdispatched hreply hq
  · by_cases hwriter : a = .writer
    · subst hwriter
      have hq' := writerStep_queued h hq
      rcases writerStep_frame h with ⟨_, _, _, rfl⟩
      exact hq'.same rfl
    · have hsentinel : a = .drop → s.drop ≠ .sendSentinel := by
        rintro rfl hd
        have hrank : s'.drop.rank = s.drop.rank + 1 := (dropStep_writes h).2.1
        rw [Open, hrank, hd] at hopen
        simp [Drop.rank] at hopen
      rcases step_queue_frame h ha hpump hwriter hsentinel with
        ⟨hwritten, hwriter', hwchan, hreplies⟩
      exact hq.keep hwritten hwriter' hwchan hreplies

end Open

/-! ## Behind the empty buffer -/

section Behind

variable {advance : τ → List UInt8 → τ × List Event} {s s' : State τ}
  {bufs : List (List UInt8)}

/-- The empty buffer stands behind `bufs`: they are written, in the writer's hand or in
front of it, or the writer has met it and they are what it has written. -/
structure Flushed (bufs : List (List UInt8)) (s : State τ) : Prop where
  queued : 6 ≤ s.drop.rank
  waits : s.writer ≠ .done → ∃ front late,
    s.written ++ held s.writer ++ front = bufs ∧ s.wchan = front ++ [] :: late
  written : s.writer = .done → s.written = bufs
  joined : 7 ≤ s.drop.rank → s.writer = .done

/-- `Drop` queues the empty buffer. -/
theorem Queued.sentinel (hq : Queued s bufs) (hd : s.drop = .sendSentinel)
    (h : dropStep s = some s') : Flushed bufs s' := by
  cases dropStep_move h with
  | sendSentinel _ =>
      refine ⟨by simp [Drop.rank], fun _ => ⟨s.wchan, [], hq.buffers, ?_⟩,
        fun hdone => absurd hdone hq.running, fun hrank => ?_⟩
      · exact if_neg hq.running
      · simp [Drop.rank] at hrank
  | _ => simp_all

/-- The writer meets the empty buffer once what stands in front of it is written. -/
theorem writerStep_flushed (hfilled : ∀ buf ∈ bufs, buf ≠ []) (h : writerStep s = some s')
    (hs : Flushed bufs s) : Flushed bufs s' := by
  rcases hs with ⟨hqueued, hwaits, -, hjoined⟩
  cases writerStep_move h with
  | @recvSentinel wchan hw hc =>
      rcases hwaits (by simp [hw]) with ⟨front, late, hbufs, hfront⟩
      refine ⟨hqueued, fun hne => absurd rfl hne, fun _ => ?_, fun _ => rfl⟩
      cases front with
      | nil => simpa [hw, held] using hbufs
      | cons buf front =>
          -- what stands in front is not empty
          rw [hc, List.cons_append, List.cons.injEq] at hfront
          exact absurd hfront.1.symm (hfilled buf (by simp [← hbufs]))
  | @recvBytes b buf wchan hw hc =>
      rcases hwaits (by simp [hw]) with ⟨front, late, hbufs, hfront⟩
      refine ⟨hqueued, fun _ => ?_, fun hdone => (by cases hdone), fun hrank => ?_⟩
      · cases front with
        | nil =>
            rw [hc, List.nil_append, List.cons.injEq] at hfront
            cases hfront.1
        | cons buf' front =>
            rw [hc, List.cons_append, List.cons.injEq] at hfront
            refine ⟨front, late, ?_, hfront.2⟩
            rw [← hbufs, hw, ← hfront.1]
            simp [held]
      · exact absurd (hjoined hrank) (by simp [hw])
  | @writeFile buf hw =>
      rcases hwaits (by simp [hw]) with ⟨front, late, hbufs, hfront⟩
      refine ⟨hqueued, fun _ => ⟨front, late, ?_, hfront⟩, fun hdone => (by cases hdone),
        fun hrank => ?_⟩
      · rw [← hbufs, hw]
        simp [held]
      · exact absurd (hjoined hrank) (by simp [hw])

/-- More buffers stand behind the empty one. -/
theorem Flushed.later (hs : Flushed bufs s) (new : List (List UInt8))
    (hdrop : s.drop.rank ≤ s'.drop.rank) (hjoined : 7 ≤ s'.drop.rank → s.writer = .done)
    (hwritten : s'.written = s.written) (hwriter : s'.writer = s.writer)
    (hwchan : s.writer ≠ .done → s'.wchan = s.wchan ++ new) : Flushed bufs s' where
  queued := le_trans hs.queued hdrop
  waits := by
    intro hne
    rw [hwriter] at hne
    rcases hs.waits hne with ⟨front, late, hbufs, hfront⟩
    refine ⟨front, late ++ new, by rw [hwritten, hwriter, hbufs], ?_⟩
    rw [hwchan hne, hfront, List.append_assoc, List.cons_append]
  written := by
    rw [hwriter, hwritten]
    exact hs.written
  joined := by
    rw [hwriter]
    exact hjoined

theorem pumpStep_flushed (h : pumpStep advance s = some s') (hs : Flushed bufs s) :
    Flushed bufs s' := by
  cases pumpStep_move h with
  | @dispatchReply e events saw_eof buf hp he hr =>
      refine hs.later [buf] le_rfl hs.joined rfl rfl fun hne => ?_
      exact if_neg hne
  | _ => exact hs.later [] le_rfl hs.joined rfl rfl fun _ => (List.append_nil _).symm

/-- Every step of the session keeps it. -/
theorem step_flushed {a : Session.Label} (hfilled : ∀ buf ∈ bufs, buf ≠ [])
    (h : step advance a s = some s') (ha : isSend a = false) (hs : Flushed bufs s) :
    Flushed bufs s' := by
  by_cases hpump : a = .pump
  · subst hpump
    exact pumpStep_flushed h hs
  · by_cases hwriter : a = .writer
    · subst hwriter
      exact writerStep_flushed hfilled h hs
    · have hsentinel : a = .drop → s.drop ≠ .sendSentinel := by
        rintro - hd
        have hrank := hs.queued
        simp [hd, Drop.rank] at hrank
      have hframe := step_queue_frame h ha hpump hwriter hsentinel
      rcases step_rank h with ⟨hrank, hjoin⟩
      refine hs.later [] hrank (fun hr => ?_) hframe.1 hframe.2.1 fun _ => ?_
      · exact (hjoin hr).elim hs.joined id
      · rw [hframe.2.2.1, List.append_nil]

/-- The writer takes a buffer out of the channel or out of its hand. -/
theorem writerStep_less (h : writerStep s = some s') :
    2 * s'.wchan.length + (held s'.writer).length <
      2 * s.wchan.length + (held s.writer).length := by
  cases writerStep_move h with
  | recvSentinel hw hc | recvBytes hw hc =>
      simp only [hw, hc, held, List.length_cons, List.length_nil]
      omega
  | writeFile hw => simp [hw, held]

/-- In front of the empty buffer the writer has a step. -/
theorem Flushed.writer_moves (hs : Flushed bufs s) (hne : s.writer ≠ .done) :
    writerStep s ≠ none := by
  rcases hs.waits hne with ⟨front, late, -, hfront⟩
  cases hw : s.writer with
  | recv =>
      cases hc : s.wchan with
      | nil => simp [hc] at hfront
      | cons buf wchan => cases buf <;> simp [writerStep, hw, hc]
  | writeFile buf => simp [writerStep, hw]
  | done => exact absurd hw hne

end Behind

/-! ## Runs -/

/-- A step of the session that is no send, under the callers. -/
theorem sessionStep_eq {advance : τ → List UInt8 → τ × List Event} {s s' : System ι τ}
    {a : Session.Label} (h : sessionStep advance a s = some s') :
    ∃ session, isSend a = false ∧ step advance a s.session = some session ∧
      s' = { s with
        session := session
        entered :=
          s.entered ++
            (session.replies.drop s.session.replies.length).map fun buf => (none, buf) } := by
  unfold sessionStep at h
  split at h
  · cases h
  · rename_i ha
    rcases Option.map_eq_some_iff.1 h with ⟨session, hstep, rfl⟩
    exact ⟨session, Bool.not_eq_true _ ▸ ha, hstep, rfl⟩

section Runs

variable [DecidableEq ι] {app : τ → Bool} {advance : τ → List UInt8 → τ × List Event}
  {s s' : System ι τ}

/-- Replies of the terminal enter the channel. -/
theorem Account.replied (hs : Account s) {session : State τ} {new : List (List UInt8)}
    (hreplies : session.replies = s.session.replies ++ new)
    (hqueued : Queued session (s.entered.map Prod.snd ++ new)) :
    Account { s with
      session := session
      entered :=
        s.entered ++
          (session.replies.drop s.session.replies.length).map fun buf => (none, buf) } := by
  have hdrop : session.replies.drop s.session.replies.length = new := by
    rw [hreplies, List.drop_left]
  refine ⟨?_, fun i => ?_, ?_⟩
  · simpa [hdrop, Function.comp_def] using hqueued
  · rw [enteredFrom_append, hs.accepted i, List.filter_map]
    simp [Function.comp_def, System.accepted]
  · rw [enteredFrom_append, hs.replies, hdrop, List.filter_map, List.map_map]
    simp [Function.comp_def, hreplies]

/-- What every state of a run keeps, also while `Drop` runs. -/
structure OpenInv (advance : τ → List UInt8 → τ × List Event) (s : System ι τ) : Prop where
  inv : Inv advance s
  account : Open s.session → Account s

theorem step_openInv {a : Label ι} (hreply : NoEmptyReply advance)
    (h : systemStep app advance a s = some s') (hs : OpenInv advance s) :
    OpenInv advance s' := by
  have hinv := step_inv hreply h hs.inv
  refine ⟨hinv, fun hopen => ?_⟩
  cases a with
  | session a =>
      rcases sessionStep_eq h with ⟨session, ha, hstep, rfl⟩
      have haccount := hs.account (le_trans (step_rank hstep).1 hopen)
      rcases hs.inv.session with ⟨_, ⟨term, title, cbs, code, rfl⟩, hsteps⟩
      have hdispatched := (steps_streamInv hsteps).dispatched
      have hnone := queued_reply hreply ⟨_, init_Init term title cbs code, hsteps⟩
      rcases step_open_queued hstep ha hopen hdispatched hnone haccount.queued with
        ⟨new, hnew, hqueued⟩
      exact haccount.replied hnew hqueued
  | call i c =>
      simp only [systemStep, callStep] at h
      split at h
      · rename_i hready
        cases c with
        | sendBytes bytes =>
            cases h
            rcases issue_frame i bytes s with ⟨hsession, hentered, hresults⟩
            exact (hs.account (hsession ▸ hopen)).congr hsession hentered hresults
        | sendKey vk mods =>
            cases h
            exact (hs.account hopen).congr rfl rfl rfl
      · cases h
  | readMode i =>
      simp only [systemStep, readModeStep] at h
      split at h
      · rename_i vk mods hi
        cases h
        rcases issue_frame i (Keymap.encode vk mods (app s.session.term)) s with
          ⟨hsession, hentered, hresults⟩
        exact (hs.account (hsession ▸ hopen)).congr hsession hentered hresults
      all_goals cases h
  | send i =>
      -- a send needs that `Drop` has not begun
      have hoff : s'.session.drop = .notStarted := by
        simp only [systemStep, sendStep] at h
        split at h
        · rcases Option.map_eq_some_iff.1 h with ⟨session, hstep, rfl⟩
          rcases hostCall_eq hstep with ⟨hd, rfl⟩
          simp only [sendBytes]
          split_ifs <;> exact hd
        all_goals cases h
      exact hinv.account hoff

theorem reachable_openInv (hreply : NoEmptyReply advance)
    (h : (machine app advance).Reachable (fun _ _ => True) s) : OpenInv advance s := by
  refine Lts.Machine.init_invariant (OpenInv advance) ?_ ?_ h
  · intro t ht
    have hinv : Inv advance t := init_inv ht
    refine ⟨hinv, fun _ => hinv.account ?_⟩
    rcases ht.1 with ⟨term, title, cbs, code, hinit⟩
    rw [hinit]
    rfl
  · intro a t t' _ hstep ht
    exact step_openInv hreply hstep ht

/-- Behind the empty buffer no call is accepted any more. -/
theorem step_behind {a : Label ι} {bufs : List (List UInt8)} (hfilled : ∀ buf ∈ bufs, buf ≠ [])
    (h : systemStep app advance a s = some s') (hs : Flushed bufs s.session) :
    Flushed bufs s'.session ∧ s'.results = s.results := by
  cases a with
  | session a =>
      rcases sessionStep_eq h with ⟨session, ha, hstep, rfl⟩
      exact ⟨step_flushed hfilled hstep ha hs, rfl⟩
  | call i c =>
      simp only [systemStep, callStep] at h
      split at h
      · cases c with
        | sendBytes bytes =>
            cases h
            rcases issue_frame i bytes s with ⟨hsession, -, hresults⟩
            exact ⟨by rwa [hsession], hresults⟩
        | sendKey vk mods =>
            cases h
            exact ⟨hs, rfl⟩
      · cases h
  | readMode i =>
      simp only [systemStep, readModeStep] at h
      split at h
      · rename_i vk mods hi
        cases h
        rcases issue_frame i (Keymap.encode vk mods (app s.session.term)) s with
          ⟨hsession, -, hresults⟩
        exact ⟨by rwa [hsession], hresults⟩
      all_goals cases h
  | send i =>
      have hqueued := hs.queued
      simp only [systemStep, sendStep] at h
      split at h
      · rcases Option.map_eq_some_iff.1 h with ⟨session, hstep, rfl⟩
        rw [(hostCall_eq hstep).1] at hqueued
        simp [Drop.rank] at hqueued
      all_goals cases h

/-- Behind the empty buffer the writer by itself comes to its end. -/
theorem writer_ends {bufs : List (List UInt8)} (hfilled : ∀ buf ∈ bufs, buf ≠ [])
    (hs : Flushed bufs s.session) :
    ∃ s', (machine app advance).Steps (fun a _ => a = .session .writer) s s' ∧
      s'.session.writer = .done := by
  have hdec : ∀ (a : Label ι) (t t' : System ι τ), a = .session .writer →
      (machine app advance).step a t = some t' → Flushed bufs t.session →
      Flushed bufs t'.session ∧
        2 * t'.session.wchan.length + (held t'.session.writer).length <
          2 * t.session.wchan.length + (held t.session.writer).length := by
    rintro a t t' rfl hstep ht
    have hnext : systemStep app advance (.session .writer) t = some t' := hstep
    refine ⟨(step_behind hfilled hnext ht).1, ?_⟩
    rcases Option.map_eq_some_iff.1 hnext with ⟨session, hwriter, rfl⟩
    exact writerStep_less hwriter
  rcases Lts.Machine.exists_quiescent Nat.lt_wfRel.wf _ hdec hs with ⟨s', hsteps, hs', hquiet⟩
  refine ⟨s', hsteps, ?_⟩
  by_contra hne
  have hnone : writerStep s'.session = none :=
    Option.map_eq_none_iff.1 (hquiet (.session .writer) rfl)
  exact hs'.writer_moves hne hnone

/-- `Drop` gives `WriteFile` all that has entered the channel before its empty buffer,
which is what the calls of the host threads were accepted with, in their order, and the
replies of the terminal up to there. It has done so when it goes on from the join of the
writer, and nothing else is written. The writer by itself brings the join about. -/
theorem destroy_flushes (hreply : NoEmptyReply advance) {s₁ : System ι τ}
    (h : (machine app advance).Reachable (fun _ _ => True) s)
    (hd : s.session.drop = .sendSentinel)
    (hstep : (machine app advance).step (.session .drop) s = some s₁)
    (hsteps : (machine app advance).Steps (fun _ _ => True) s₁ s') :
    s'.session.written <+: s.entered.map Prod.snd ∧
      (s'.session.drop ≠ .joinWriter → s'.session.written = s.entered.map Prod.snd) ∧
      (∃ s₂, (machine app advance).Steps (fun a _ => a = .session .writer) s' s₂ ∧
        s₂.session.writer = .done) ∧
      (∀ i, s.enteredFrom (some i) = s'.accepted i) ∧
      s.enteredFrom none = s.session.replies := by
  have haccount : Account s := (reachable_openInv hreply h).account (by simp [Open, hd, Drop.rank])
  have hfilled := haccount.queued.filled
  have hsession : sessionStep advance .drop s = some s₁ := hstep
  rcases sessionStep_eq hsession with ⟨session, -, hdrop, rfl⟩
  have hflushed := haccount.queued.sentinel hd hdrop
  have hrun : Flushed (s.entered.map Prod.snd) s'.session ∧ s'.results = s.results := by
    refine Lts.Machine.steps_invariant
      (fun t => Flushed (s.entered.map Prod.snd) t.session ∧ t.results = s.results) ?_ hsteps
      ⟨hflushed, rfl⟩
    rintro a t t' - ht ⟨hbehind, hresults⟩
    rcases step_behind hfilled ht hbehind with ⟨hbehind', hresults'⟩
    exact ⟨hbehind', hresults'.trans hresults⟩
  rcases hrun with ⟨hbehind, hresults⟩
  refine ⟨?_, fun hne => ?_, writer_ends hfilled hbehind, fun i => ?_, haccount.replies⟩
  · by_cases hdone : s'.session.writer = .done
    · exact (hbehind.written hdone) ▸ List.prefix_rfl
    · rcases hbehind.waits hdone with ⟨front, late, hbufs, -⟩
      rw [← hbufs, List.append_assoc]
      exact List.prefix_append _ _
  · have hrank : 7 ≤ s'.session.drop.rank := by
      have hqueued := hbehind.queued
      revert hne hqueued
      cases s'.session.drop <;> simp [Drop.rank]
    exact hbehind.written (hbehind.joined hrank)
  · rw [haccount.accepted i, System.accepted, System.accepted, hresults]

end Runs

/-- Two threads send, the session is destroyed while the pump parses a question of the
shell, and the answer comes after the empty buffer. -/
def destroyedEarly : List (Label Bool) :=
  List.flatten [List.replicate 5 (.session .start),
    [.call true (.sendKey 0x43 Keymap.MOD_CTRL), .call false (.sendBytes [0x61, 0x62]),
      .readMode true, .send true, .send false, .session .writer,
      .session (.shellWrite [5]), .session (.reader 1), .session (.reader 1)],
    List.replicate 4 (.session .pump), [.session (.beginDrop .host)],
    List.replicate 4 (.session .drop)]

/-- The empty buffer, the late answer, the writer to its end and the join. -/
def flushing : List (Label Bool) :=
  List.flatten [[.session .pump], List.replicate 4 (.session .writer), [.session .drop]]

theorem destroyedEarly_written : ∃ s s₁ s',
    (machine (fun _ => false) answering).run quietCallers destroyedEarly = some s ∧
      (machine (fun _ => false) answering).step (.session .drop) s = some s₁ ∧
      (machine (fun _ => false) answering).run s₁ flushing = some s' ∧
      s'.session.replies = [[0x6F, 0x6B]] ∧
      s'.session.written = [[0x03], [0x61, 0x62]] := by
  have hinit : quietCallers.Init := ⟨init_Init _ _ _ _, rfl, rfl, rfl, rfl⟩
  have htest : ((machine (fun _ => false) answering).run quietCallers destroyedEarly).any
      (fun s => decide (s.session.drop = .sendSentinel ∧
        s.entered.map Prod.snd = [[0x03], [0x61, 0x62]]) &&
        ((machine (fun _ => false) answering).step (.session .drop) s).any fun s₁ =>
          ((machine (fun _ => false) answering).run s₁ flushing).any fun s' =>
            decide (s'.session.drop = .takePty ∧ s'.session.replies = [[0x6F, 0x6B]])) =
        true := by
    decide +kernel
  rcases Lts.Machine.exists_reachable _ _ hinit (Lts.Machine.meets_true _ _) htest with
    ⟨s, hrun, hs, hend⟩
  rw [Bool.and_eq_true, decide_eq_true_eq, Option.any_eq_true] at hend
  rcases hend with ⟨⟨hd, hentered⟩, s₁, hstep, hlast⟩
  rcases (Option.any_eq_true ..).1 hlast with ⟨s', hflush, hs'⟩
  rcases of_decide_eq_true hs' with ⟨hdrop, hreplies⟩
  obtain ⟨-, hwritten, -⟩ :=
    destroy_flushes answering_reply hs hd hstep (Lts.Machine.steps_of_run hflush)
  refine ⟨s, s₁, s', hrun, hstep, hflush, hreplies, ?_⟩
  rw [← hentered]
  exact hwritten (by simp [hdrop])

end RataShell.Writing
