import RataShell.Session.Keymap
import RataShell.Session.Delivery

/-!
# The writer

Host threads that call `send_bytes` and `send_key` while the pump sends the replies of
the terminal, and the writer thread, which stops at an empty buffer.

* `Queued`: what has entered the channel is written, in the writer's hand or waits,
  and none of it is empty.
* `step_queued`, `step_inv`: every step keeps it until `Drop` begins, and what has
  entered from a host thread is what that thread's calls were accepted with.
* `writer_exact`: the buffers given to `WriteFile`, over all runs.
-/

namespace RataShell.Writing

open Session

variable {ι τ : Type}

/-! ## Callers -/

/-- A call of a host thread. -/
inductive Call where
  | sendBytes (bytes : List UInt8)
  | sendKey (vk mods : UInt32)
deriving DecidableEq, Repr

/-- Where a host thread stands: outside, before it reads the cursor mode under the term
lock, or before it sends under the writer lock. -/
inductive Caller where
  | idle
  | readMode (vk mods : UInt32)
  | send (bytes : List UInt8)
deriving DecidableEq, Repr

/-- What a thread still has to send. -/
def Caller.pending : Caller → List (List UInt8)
  | .send bytes => [bytes]
  | .idle | .readMode .. => []

@[simp] theorem pending_idle : Caller.idle.pending = [] := rfl
@[simp] theorem pending_readMode (vk mods : UInt32) : (Caller.readMode vk mods).pending = [] := rfl
@[simp] theorem pending_send (bytes : List UInt8) : (Caller.send bytes).pending = [bytes] := rfl

/-- A session and its callers, with the buffers that their calls have had to send and
the results of these, and those that have entered the channel with their senders. The
sender `none` is the pump. -/
structure System (ι τ : Type) where
  session : State τ
  caller : ι → Caller
  issued : ι → List (List UInt8)
  results : ι → List (List UInt8 × Bool)
  entered : List (Option ι × List UInt8)

/-- A step of the session's own threads, the child or the other calls; the start of a
call of a host thread, and what this does. -/
inductive Label (ι : Type) where
  | session (a : Session.Label)
  | call (i : ι) (c : Call)
  | readMode (i : ι)
  | send (i : ι)
deriving DecidableEq, Repr

/-- A host call that is not one of these. -/
def isSend : Session.Label → Bool
  | .sendBytes _ => true
  | _ => false

section Steps

variable [DecidableEq ι] (app : τ → Bool) (advance : τ → List UInt8 → τ × List Event)

/-- The thread goes on with what it has to send. Both calls return at once where that
is nothing. -/
def issue (i : ι) (bytes : List UInt8) (s : System ι τ) : System ι τ :=
  if bytes = [] then { s with caller := Function.update s.caller i .idle }
  else
    { s with
      caller := Function.update s.caller i (.send bytes)
      issued := Function.update s.issued i (s.issued i ++ [bytes]) }

/-- `Session::send_bytes` and `send_key` up to their first lock. -/
def callStep (i : ι) (c : Call) (s : System ι τ) : Option (System ι τ) :=
  if s.session.drop = .notStarted ∧ s.caller i = .idle then
    match c with
    | .sendBytes bytes => some (issue i bytes s)
    | .sendKey vk mods =>
        some { s with caller := Function.update s.caller i (.readMode vk mods) }
  else none

/-- The section of `Session::send_key` under the term lock. -/
def readModeStep (i : ι) (s : System ι τ) : Option (System ι τ) :=
  match s.caller i with
  | .readMode vk mods => some (issue i (Keymap.encode vk mods (app s.session.term)) s)
  | .idle | .send _ => none

/-- The section of `Session::send_bytes` under the writer lock. The result of the send
is ignored; the call fails where the writer is not stored. -/
def sendStep (i : ι) (s : System ι τ) : Option (System ι τ) :=
  match s.caller i with
  | .send bytes =>
      (step advance (.sendBytes bytes) s.session).map fun session =>
        { s with
          session := session
          caller := Function.update s.caller i .idle
          results := Function.update s.results i (s.results i ++ [(bytes, s.session.handles)])
          entered := if s.session.handles ∧ s.session.writer ≠ .done then
            s.entered ++ [(some i, bytes)] else s.entered }
  | .idle | .readMode .. => none

/-- A step of the session; a reply of the pump enters the channel. -/
def sessionStep (a : Session.Label) (s : System ι τ) : Option (System ι τ) :=
  if isSend a then none
  else
    (step advance a s.session).map fun session =>
      { s with
        session := session
        entered :=
          s.entered ++ (session.replies.drop s.session.replies.length).map fun buf => (none, buf) }

def systemStep : Label ι → System ι τ → Option (System ι τ)
  | .session a => sessionStep advance a
  | .call i c => callStep i c
  | .readMode i => readModeStep app i
  | .send i => sendStep advance i

/-- A session that is about to start, with no call under way. -/
def System.Init (s : System ι τ) : Prop :=
  Session.Init s.session ∧ s.caller = (fun _ => .idle) ∧ s.issued = (fun _ => []) ∧
    s.results = (fun _ => []) ∧ s.entered = []

def machine : Lts.Machine (System ι τ) (Label ι) where
  Init := System.Init
  step := systemStep app advance

end Steps

/-! ## The writer's queue -/

section Queue

variable {advance : τ → List UInt8 → τ × List Event} {s s' : State τ}
  {bufs : List (List UInt8)}

/-- The buffer in the writer's hand. -/
def held : Writer → List (List UInt8)
  | .writeFile buf => [buf]
  | .recv | .done => []

/-- What has entered the channel is written, in the writer's hand or waits. None of it
is empty, and so the writer runs. -/
structure Queued (s : State τ) (bufs : List (List UInt8)) : Prop where
  buffers : s.written ++ held s.writer ++ s.wchan = bufs
  running : s.writer ≠ .done
  filled : ∀ buf ∈ bufs, buf ≠ []

theorem init_queued (term : τ) (title : String) (cbs : Callbacks) (code : Int32) :
    Queued (init term title cbs code) [] := by
  constructor <;> simp [init, held]

/-- One more buffer. -/
theorem Queued.enter (hq : Queued s bufs) {buf : List UInt8} (hbuf : buf ≠ [])
    (hwritten : s'.written = s.written) (hwriter : s'.writer = s.writer)
    (hwchan : s'.wchan = s.sendWriter buf) : Queued s' (bufs ++ [buf]) where
  buffers := by
    rw [hwritten, hwriter, hwchan, State.sendWriter, if_neg hq.running, ← List.append_assoc,
      hq.buffers]
  running := hwriter ▸ hq.running
  filled := List.forall_mem_append.2 ⟨hq.filled, List.forall_mem_singleton.2 hbuf⟩

/-- No reply is added. -/
theorem Queued.same (hq : Queued s' bufs) (hreplies : s'.replies = s.replies) :
    ∃ new, s'.replies = s.replies ++ new ∧ Queued s' (bufs ++ new) :=
  ⟨[], by rw [hreplies, List.append_nil], by rwa [List.append_nil]⟩

/-- Nothing enters or leaves. -/
theorem Queued.keep (hq : Queued s bufs) (hwritten : s'.written = s.written)
    (hwriter : s'.writer = s.writer) (hwchan : s'.wchan = s.wchan)
    (hreplies : s'.replies = s.replies) :
    ∃ new, s'.replies = s.replies ++ new ∧ Queued s' (bufs ++ new) := by
  have hq' : Queued s' bufs :=
    ⟨by rw [hwritten, hwriter, hwchan, hq.buffers], hwriter ▸ hq.running, hq.filled⟩
  exact hq'.same hreplies

/-- The writer hands over what it has taken, and takes no empty buffer. -/
theorem writerStep_queued (h : writerStep s = some s') (hq : Queued s bufs) : Queued s' bufs := by
  rcases hq with ⟨hbuffers, hrunning, hfilled⟩
  cases writerStep_move h with
  | @recvSentinel wchan hw hc =>
      -- the empty buffer would be one of those that have entered
      rw [hw, hc] at hbuffers
      exact absurd rfl (hfilled [] (by simp [← hbuffers]))
  | @recvBytes b buf wchan hw hc =>
      rw [hw, hc] at hbuffers
      exact ⟨by simpa [held] using hbuffers, by simp, hfilled⟩
  | @writeFile buf hw =>
      rw [hw] at hbuffers
      exact ⟨by simpa [held] using hbuffers, by simp, hfilled⟩

/-- The terminal queues no empty reply. -/
def NoEmptyReply (advance : τ → List UInt8 → τ × List Event) : Prop :=
  ∀ t buf, ∀ e ∈ (advance t buf).2, e.reply ≠ some []

theorem pumpStep_queued_reply (hreply : NoEmptyReply advance)
    (h : pumpStep advance s = some s') (hs : ∀ e ∈ s.queued, e.reply ≠ some []) :
    ∀ e ∈ s'.queued, e.reply ≠ some [] := by
  cases pumpStep_move h with
  | advance hp => exact List.forall_mem_append.2 ⟨hs, hreply _ _⟩
  | _ => exact hs

/-- No event that parsing has queued has an empty reply. -/
theorem queued_reply (hreply : NoEmptyReply advance) {C : Lts.StepCond (State τ) Session.Label}
    (h : (Session.machine advance).Reachable C s) : ∀ e ∈ s.queued, e.reply ≠ some [] := by
  refine reachable_invariant (fun s => ∀ e ∈ s.queued, e.reply ≠ some []) ?_ ?_ h
  · rintro s ⟨term, title, cbs, code, rfl⟩ e he
    cases he
  · intro a s s' _ hstep hph hs
    by_cases ha : a = .pump
    · subst ha
      exact pumpStep_queued_reply hreply hstep hs
    · rw [(step_beside ha hstep hph).queued]
      exact hs

/-- The pump adds the reply of an event that parsing has queued, or nothing. -/
theorem pumpStep_queued (h : pumpStep advance s = some s') (hdispatched : Dispatched s)
    (hreply : ∀ e ∈ s.queued, e.reply ≠ some []) (hq : Queued s bufs) :
    ∃ new, s'.replies = s.replies ++ new ∧ Queued s' (bufs ++ new) := by
  cases pumpStep_move h with
  | @dispatchReply e events saw_eof buf hp he hr =>
      have hmem : e ∈ s.queued := by
        rw [← hdispatched.events, hp]
        simp [Pump.toDispatch]
      have hbuf : buf ≠ [] := by
        rintro rfl
        exact hreply e hmem hr
      exact ⟨[buf], rfl, hq.enter hbuf rfl rfl rfl⟩
  | _ => exact hq.keep rfl rfl rfl rfl

/-- A step of the session that is no send keeps the queue, with the replies it adds, as
long as `Drop` has not begun. -/
theorem step_queued {a : Session.Label} (h : step advance a s = some s') (ha : isSend a = false)
    (hd : s'.drop = .notStarted) (hdispatched : Dispatched s)
    (hreply : ∀ e ∈ s.queued, e.reply ≠ some []) (hq : Queued s bufs) :
    ∃ new, s'.replies = s.replies ++ new ∧ Queued s' (bufs ++ new) := by
  cases a with
  | pump => exact pumpStep_queued h hdispatched hreply hq
  | writer =>
      have hq' := writerStep_queued h hq
      rcases writerStep_frame h with ⟨_, _, _, rfl⟩
      exact hq'.same rfl
  | sendBytes bytes => cases ha
  | start =>
      rcases startStep_frame h with ⟨_, _, _, _, _, _, rfl⟩
      exact hq.keep rfl rfl rfl rfl
  | reader n =>
      rcases readerStep_frame h with ⟨_, _, _, _, rfl⟩
      exact hq.keep rfl rfl rfl rfl
  | watcher =>
      rcases watcherStep_frame h with ⟨_, _, _, _, rfl⟩
      exact hq.keep rfl rfl rfl rfl
  | drop =>
      cases dropStep_move h
      all_goals cases hd
  | beginDrop on =>
      rcases beginDropStep_frame h with ⟨-, -, -, rfl⟩
      cases hd
  | _ =>
      cases outside_move rfl h
      all_goals exact hq.keep rfl rfl rfl rfl

/-- `Drop` does not come back from where it has begun. -/
theorem step_off {a : Session.Label} (h : step advance a s = some s')
    (hd : s'.drop = .notStarted) : s.drop = .notStarted := by
  cases a with
  | start =>
      rcases startStep_frame h with ⟨_, _, _, _, _, _, rfl⟩
      exact hd
  | reader n =>
      rcases readerStep_frame h with ⟨_, _, _, _, rfl⟩
      exact hd
  | pump =>
      rcases pumpStep_frame h with ⟨_, _, _, _, _, _, _, _, _, _, _, _, _, _, rfl⟩
      exact hd
  | watcher =>
      rcases watcherStep_frame h with ⟨_, _, _, _, rfl⟩
      exact hd
  | writer =>
      rcases writerStep_frame h with ⟨_, _, _, rfl⟩
      exact hd
  | drop =>
      cases dropStep_move h
      all_goals cases hd
  | beginDrop on => exact (beginDropStep_frame h).2.1
  | _ =>
      rcases outside_frame rfl h with ⟨_, _, _, _, _, _, rfl⟩
      exact hd

end Queue

/-! ## Runs -/

namespace System

/-- The buffers of one sender, in the order in which they have entered. -/
def enteredFrom (sender : Option ι) [DecidableEq ι] (s : System ι τ) : List (List UInt8) :=
  (s.entered.filter fun m => m.1 = sender).map Prod.snd

/-- The buffers of the calls of a thread that have returned `Ok`, in their order. -/
def accepted (i : ι) (s : System ι τ) : List (List UInt8) :=
  ((s.results i).filter fun r => r.2).map Prod.fst

end System

section Runs

variable [DecidableEq ι] {app : τ → Bool} {advance : τ → List UInt8 → τ × List Event}
  {s s' : System ι τ}

/-- What a thread has had to send it has returned from, or it is in the last call. -/
structure Calls (s : System ι τ) : Prop where
  issued : ∀ i, s.issued i = (s.results i).map Prod.fst ++ (s.caller i).pending
  filled : ∀ i, ∀ buf ∈ (s.caller i).pending, buf ≠ []

/-- What has entered the channel, while `Drop` has not begun. -/
structure Account (s : System ι τ) : Prop where
  queued : Queued s.session (s.entered.map Prod.snd)
  accepted : ∀ i, s.enteredFrom (some i) = s.accepted i
  replies : s.enteredFrom none = s.session.replies

theorem enteredFrom_append (sender : Option ι) (s : System ι τ) (session : State τ)
    (caller : ι → Caller) (issued : ι → List (List UInt8))
    (results : ι → List (List UInt8 × Bool)) (ms : List (Option ι × List UInt8)) :
    System.enteredFrom sender ⟨session, caller, issued, results, s.entered ++ ms⟩ =
      s.enteredFrom sender ++ (ms.filter fun m => m.1 = sender).map Prod.snd := by
  simp [System.enteredFrom]

/-- A thread goes on to `c`, with some more buffers to send and some more results. -/
theorem Calls.update (hs : Calls s) (i : ι) (c : Caller) (bufs : List (List UInt8))
    (results : List (List UInt8 × Bool))
    (hpending : (s.caller i).pending ++ bufs = results.map Prod.fst ++ c.pending)
    (hfilled : ∀ buf ∈ c.pending, buf ≠ [])
    (hcaller : s'.caller = Function.update s.caller i c)
    (hissued : s'.issued = Function.update s.issued i (s.issued i ++ bufs))
    (hresults : s'.results = Function.update s.results i (s.results i ++ results)) :
    Calls s' := by
  constructor
  · intro j
    rw [hcaller, hissued, hresults]
    by_cases hj : j = i
    · subst hj
      simp only [Function.update_self, hs.issued j, List.map_append, List.append_assoc, hpending]
    · simp only [Function.update_of_ne hj, hs.issued j]
  · intro j
    rw [hcaller]
    by_cases hj : j = i
    · subst hj
      rwa [Function.update_self]
    · rw [Function.update_of_ne hj]
      exact hs.filled j

/-- A thread with nothing to send goes on with some buffer. -/
theorem issue_calls {i : ι} {bytes : List UInt8} (hs : Calls s) (hi : (s.caller i).pending = []) :
    Calls (issue i bytes s) := by
  unfold issue
  split
  · refine hs.update i .idle [] [] ?_ ?_ rfl ?_ ?_
    all_goals simp [hi]
  · rename_i hbytes
    refine hs.update i (.send bytes) [bytes] [] ?_ ?_ rfl rfl ?_
    all_goals simp [hi, hbytes]

/-- Sends of the session's own threads. -/
theorem sessionStep_account {a : Session.Label} (h : sessionStep advance a s = some s')
    (hreach : (Session.machine advance).Reachable (fun _ _ => True) s.session)
    (hreply : NoEmptyReply advance) (hd : s'.session.drop = .notStarted) (hs : Account s) :
    Account s' := by
  rcases hs with ⟨hqueued, haccepted, hreplies⟩
  unfold sessionStep at h
  split at h
  · cases h
  · rename_i ha
    rcases Option.map_eq_some_iff.1 h with ⟨session, hstep, rfl⟩
    rcases hreach with ⟨_, ⟨term, title, cbs, code, rfl⟩, hsteps⟩
    have hdispatched := (steps_streamInv hsteps).dispatched
    have hnone := queued_reply hreply ⟨_, init_Init term title cbs code, hsteps⟩
    rcases step_queued hstep (Bool.not_eq_true _ ▸ ha) hd hdispatched hnone hqueued with
      ⟨new, hnew, hqueued'⟩
    have hdrop : session.replies.drop s.session.replies.length = new := by
      rw [hnew, List.drop_left]
    refine ⟨?_, fun i => ?_, ?_⟩
    · simpa [hdrop, Function.comp_def] using hqueued'
    · rw [enteredFrom_append, haccepted i, List.filter_map]
      simp [Function.comp_def, System.accepted]
    · rw [enteredFrom_append, hreplies, hdrop, List.filter_map, List.map_map]
      simp [Function.comp_def, hnew]

/-- The section of `send_bytes` under the writer lock. -/
theorem sendStep_account {i : ι} (h : sendStep advance i s = some s') (hcalls : Calls s)
    (hs : Account s) : Account s' := by
  rcases hs with ⟨hqueued, haccepted, hreplies⟩
  unfold sendStep at h
  split at h
  · rename_i bytes hi
    rcases Option.map_eq_some_iff.1 h with ⟨session, hstep, rfl⟩
    rcases hostCall_eq hstep with ⟨hd, rfl⟩
    have hbytes : bytes ≠ [] := hcalls.filled i bytes (by simp [hi])
    have hisEmpty : bytes.isEmpty = false := by simpa using hbytes
    cases hhandles : s.session.handles with
    | false =>
        -- the call fails
        have hsession : sendBytes bytes s.session = s.session := by
          simp [sendBytes, hisEmpty, hhandles]
        refine ⟨?_, fun j => ?_, ?_⟩
        · simpa [hsession, hhandles] using hqueued
        · simp only [System.enteredFrom, System.accepted] at haccepted ⊢
          by_cases hj : j = i
          · subst hj
            simpa using haccepted j
          · simpa [hj] using haccepted j
        · simpa [hsession, System.enteredFrom] using hreplies
    | true =>
        have hsession : sendBytes bytes s.session =
            { s.session with wchan := s.session.sendWriter bytes } := by
          simp [sendBytes, hisEmpty, hhandles]
        have hrunning : True ∧ s.session.writer ≠ .done := ⟨trivial, hqueued.running⟩
        simp only [if_pos hrunning]
        refine ⟨?_, fun j => ?_, ?_⟩
        · rw [hsession, List.map_append]
          exact hqueued.enter hbytes rfl rfl rfl
        · rw [enteredFrom_append, haccepted j]
          by_cases hj : j = i
          · subst hj
            simp [System.accepted]
          · simp [System.accepted, hj, Ne.symm hj]
        · rw [enteredFrom_append, hreplies, hsession]
          simp
  all_goals cases h

theorem step_calls {a : Label ι} (h : systemStep app advance a s = some s') (hs : Calls s) :
    Calls s' := by
  cases a with
  | session a =>
      simp only [systemStep, sessionStep] at h
      split at h
      · cases h
      · rcases Option.map_eq_some_iff.1 h with ⟨session, -, rfl⟩
        exact ⟨hs.issued, hs.filled⟩
  | call i c =>
      simp only [systemStep, callStep] at h
      split at h
      · rename_i hready
        cases c with
        | sendBytes bytes =>
            cases h
            exact issue_calls hs (by rw [hready.2, pending_idle])
        | sendKey vk mods =>
            cases h
            refine hs.update i (.readMode vk mods) [] [] ?_ ?_ rfl ?_ ?_
            all_goals simp [hready.2]
      · cases h
  | readMode i =>
      simp only [systemStep, readModeStep] at h
      split at h
      · rename_i vk mods hi
        cases h
        exact issue_calls hs (by rw [hi, pending_readMode])
      all_goals cases h
  | send i =>
      simp only [systemStep, sendStep] at h
      split at h
      · rename_i bytes hi
        rcases Option.map_eq_some_iff.1 h with ⟨session, -, rfl⟩
        refine hs.update i .idle [] [(bytes, _)] ?_ ?_ rfl ?_ rfl
        all_goals simp [hi]
      all_goals cases h

/-- What every state of a run keeps. -/
structure Inv (advance : τ → List UInt8 → τ × List Event) (s : System ι τ) : Prop where
  session : (Session.machine advance).Reachable (fun _ _ => True) s.session
  calls : Calls s
  account : s.session.drop = .notStarted → Account s

theorem init_inv (h : s.Init) : Inv advance s := by
  rcases h with ⟨hsession, hcaller, hissued, hresults, hentered⟩
  refine ⟨.init hsession, ⟨by simp [hcaller, hissued, hresults], by simp [hcaller]⟩, fun _ => ?_⟩
  rcases hsession with ⟨term, title, cbs, code, hinit⟩
  refine ⟨?_, ?_, ?_⟩
  · rw [hentered, hinit]
    exact init_queued term title cbs code
  · simp [System.enteredFrom, System.accepted, hentered, hresults]
  · simp [System.enteredFrom, hentered, hinit, init]

/-- A step that leaves the session and the channel alone. -/
theorem Account.congr (hs : Account s) (hsession : s'.session = s.session)
    (hentered : s'.entered = s.entered) (hresults : s'.results = s.results) : Account s' := by
  rcases hs with ⟨hqueued, haccepted, hreplies⟩
  refine ⟨by rwa [hsession, hentered], fun i => ?_, ?_⟩
  · simpa only [System.enteredFrom, System.accepted, hentered, hresults] using haccepted i
  · simpa only [System.enteredFrom, hsession, hentered] using hreplies

theorem issue_frame (i : ι) (bytes : List UInt8) (s : System ι τ) :
    (issue i bytes s).session = s.session ∧ (issue i bytes s).entered = s.entered ∧
      (issue i bytes s).results = s.results := by
  unfold issue
  split <;> exact ⟨rfl, rfl, rfl⟩

theorem step_inv {a : Label ι} (hreply : NoEmptyReply advance)
    (h : systemStep app advance a s = some s') (hs : Inv advance s) : Inv advance s' := by
  have hcalls := step_calls h hs.calls
  -- what has no effect on the session leaves the account as it is
  have hissue : ∀ i bytes, s' = issue i bytes s → Inv advance s' := by
    rintro i bytes rfl
    rcases issue_frame i bytes s with ⟨hsession, hentered, hresults⟩
    refine ⟨hsession ▸ hs.session, hcalls, fun hd => ?_⟩
    exact (hs.account (hsession ▸ hd)).congr hsession hentered hresults
  cases a with
  | session a =>
      have haccount := sessionStep_account h hs.session hreply
      simp only [systemStep, sessionStep] at h
      split at h
      · cases h
      · rcases Option.map_eq_some_iff.1 h with ⟨session, hstep, rfl⟩
        refine ⟨hs.session.trans (.single trivial hstep), hcalls, fun hd => ?_⟩
        exact haccount hd (hs.account (step_off hstep hd))
  | call i c =>
      simp only [systemStep, callStep] at h
      split at h
      · cases c with
        | sendBytes bytes =>
            cases h
            exact hissue i bytes rfl
        | sendKey vk mods =>
            cases h
            exact ⟨hs.session, hcalls, fun hd => (hs.account hd).congr rfl rfl rfl⟩
      · cases h
  | readMode i =>
      simp only [systemStep, readModeStep] at h
      split at h
      · cases h
        exact hissue i _ rfl
      all_goals cases h
  | send i =>
      have haccount := fun hd => sendStep_account h hs.calls (hs.account hd)
      simp only [systemStep, sendStep] at h
      split at h
      · rename_i bytes hi
        rcases Option.map_eq_some_iff.1 h with ⟨session, hstep, rfl⟩
        have hnext : (Session.machine advance).step (.sendBytes bytes) s.session = some session :=
          hstep
        have hsteps : (Session.machine advance).Steps (fun _ _ => True) s.session session :=
          .single trivial hnext
        exact ⟨hs.session.trans hsteps, hcalls, fun hd => haccount (step_off hstep hd)⟩
      all_goals cases h

/-- The writer by itself writes all that has entered. -/
theorem writer_drains (hs : Account s) :
    ∃ s', (machine app advance).Steps (fun a _ => a = .session .writer) s s' ∧
      s'.entered = s.entered ∧ s'.session.written = s.entered.map Prod.snd := by
  -- each step of the writer takes a buffer out of the channel or out of its hand
  have hdec : ∀ (a : Label ι) (t t' : System ι τ), a = .session .writer →
      (machine app advance).step a t = some t' →
      t.entered = s.entered ∧ Queued t.session (s.entered.map Prod.snd) →
      (t'.entered = s.entered ∧ Queued t'.session (s.entered.map Prod.snd)) ∧
        2 * t'.session.wchan.length + (held t'.session.writer).length <
          2 * t.session.wchan.length + (held t.session.writer).length := by
    rintro a t t' rfl hstep ⟨hentered, hqueued⟩
    rcases Option.map_eq_some_iff.1 hstep with ⟨session, hwriter, rfl⟩
    have hqueued' := writerStep_queued hwriter hqueued
    have hreplies : session.replies = t.session.replies := by
      rcases writerStep_frame hwriter with ⟨_, _, _, rfl⟩
      rfl
    refine ⟨⟨by simp [hreplies, hentered], hqueued'⟩, ?_⟩
    cases writerStep_move hwriter with
    | recvSentinel hw hc => exact absurd rfl hqueued'.running
    | recvBytes hw hc =>
        rw [hw, hc]
        simp only [held, List.length_cons, List.length_nil]
        omega
    | writeFile hw => simp [hw, held]
  rcases Lts.Machine.exists_quiescent Nat.lt_wfRel.wf _ hdec ⟨rfl, hs.queued⟩ with
    ⟨s', hsteps, ⟨hentered, hqueued⟩, hquiet⟩
  refine ⟨s', hsteps, hentered, ?_⟩
  have hnone : writerStep s'.session = none :=
    Option.map_eq_none_iff.1 (hquiet (.session .writer) rfl)
  have hbuffers := hqueued.buffers
  have hrunning := hqueued.running
  cases hw : s'.session.writer with
  | recv =>
      cases hc : s'.session.wchan with
      | nil => simpa [hw, hc, held] using hbuffers
      | cons buf wchan => cases buf <;> simp [writerStep, hw, hc] at hnone
  | writeFile buf => simp [writerStep, hw] at hnone
  | done => exact absurd hw hrunning

/-- Until `Drop` begins the writer does not stop. What it has given to `WriteFile`,
what it is giving and what waits are together the buffers that have entered, none of
them empty, and by itself it writes them all. Those of a thread are the ones of its calls
that were accepted, in their order, and the others are the replies of the terminal. -/
theorem writer_exact (hreply : NoEmptyReply advance)
    (h : (machine app advance).Reachable (fun _ _ => True) s)
    (hd : s.session.drop = .notStarted) :
    s.session.writer ≠ .done ∧
      s.session.written ++ held s.session.writer ++ s.session.wchan = s.entered.map Prod.snd ∧
      (∀ m ∈ s.entered, m.2 ≠ []) ∧
      (∃ s', (machine app advance).Steps (fun a _ => a = .session .writer) s s' ∧
        s'.entered = s.entered ∧ s'.session.written = s.entered.map Prod.snd) ∧
      (∀ i, s.enteredFrom (some i) = s.accepted i ∧
        s.issued i = (s.results i).map Prod.fst ++ (s.caller i).pending) ∧
      s.enteredFrom none = s.session.replies := by
  have hinv : Inv advance s := by
    refine Lts.Machine.init_invariant (Inv advance) (fun _ => init_inv) ?_ h
    intro a t t' _ hstep ht
    exact step_inv hreply hstep ht
  have haccount := hinv.account hd
  refine ⟨haccount.queued.running, haccount.queued.buffers, ?_, writer_drains haccount,
    fun i => ⟨haccount.accepted i, hinv.calls.issued i⟩, haccount.replies⟩
  intro m hm
  exact haccount.queued.filled m.2 (List.mem_map_of_mem hm)

end Runs

/-- The terminal of the runs above answers with two bytes. -/
theorem answering_reply : NoEmptyReply answering := by
  intro t buf
  induction buf generalizing t with
  | nil => simp [answering]
  | cons b buf ih =>
      intro e he
      rcases List.mem_append.1 he with hfirst | hrest
      · simp only at hfirst
        split at hfirst
        · rw [List.mem_singleton.1 hfirst]
          decide
        · split at hfirst
          · rw [List.mem_singleton.1 hfirst]
            decide +kernel
          · cases hfirst
      · exact ih _ e hrest

/-- Two threads and the pump: one presses Ctrl+C, the terminal answers, and the other
sends a text that it has had in hand since before. -/
def threeSenders : List (Label Bool) :=
  List.flatten [List.replicate 5 (.session .start),
    [.session (.shellWrite [5]), .call true (.sendKey 0x43 Keymap.MOD_CTRL),
      .call false (.sendBytes [0x61, 0x62]), .readMode true, .send true,
      .session (.reader 1), .session (.reader 1)],
    List.replicate 5 (.session .pump), [.call true (.sendBytes []), .send false],
    List.replicate 3 (.session .writer)]

def quietCallers : System Bool (List UInt8) where
  session := listening
  caller := fun _ => .idle
  issued := fun _ => []
  results := fun _ => []
  entered := []

theorem threeSenders_written : ∃ s,
    (machine (fun _ => false) answering).run quietCallers threeSenders = some s ∧
      s.entered = [(some true, [0x03]), (none, [0x6F, 0x6B]), (some false, [0x61, 0x62])] ∧
      s.session.writer ≠ .done ∧
      s.session.written ++ held s.session.writer ++ s.session.wchan =
        [[0x03], [0x6F, 0x6B], [0x61, 0x62]] := by
  have hinit : quietCallers.Init := ⟨init_Init _ _ _ _, rfl, rfl, rfl, rfl⟩
  have hmeets : (machine (fun _ => false) answering).Meets (fun _ _ => True) quietCallers
      threeSenders := by
    decide +kernel
  have htest : ((machine (fun _ => false) answering).run quietCallers threeSenders).any
      (fun s => decide (s.session.drop = .notStarted ∧
        s.entered = [(some true, [0x03]), (none, [0x6F, 0x6B]), (some false, [0x61, 0x62])])) =
        true := by
    decide +kernel
  rcases Lts.Machine.exists_reachable _ _ hinit hmeets htest with ⟨s, hrun, hs, hend⟩
  rcases of_decide_eq_true hend with ⟨hd, hentered⟩
  obtain ⟨hrunning, hbuffers, -⟩ := writer_exact answering_reply hs hd
  rw [hentered] at hbuffers
  exact ⟨s, hrun, hentered, hrunning, hbuffers⟩

end RataShell.Writing
