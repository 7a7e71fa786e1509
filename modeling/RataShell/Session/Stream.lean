import RataShell.Lib.Feed
import RataShell.Session.Phases

/-!
# The output stream

From the reader's channel to the terminal and its events.

* **Messages** (`Taken`): the pump takes what was sent, in order, and the
  first `Eof` is the last message it takes.
* **Bytes and events** (`Parsed`, `Dispatched`): the buffers taken are fed one
  by one, and what parsing them queues is dispatched once each, in order.
* `StreamInv` collects them for whole runs; once the pump has left its loop
  everything before the first `Eof` is parsed and dispatched
  (`StreamInv.complete`).
-/

namespace RataShell.Session

open Feed

variable {τ : Type} {advance : τ → List UInt8 → τ × List Event} {s s' : State τ} {t₀ : τ}

/-! ## What the pump has in hand -/

/-- The buffers among messages. -/
def chunks (ms : List IoEvent) : List (List UInt8) := ms.filterMap IoEvent.chunk

/-- The buffers before the first `Eof`. -/
def beforeEof (ms : List IoEvent) : List (List UInt8) := chunks (ms.takeWhile (· ≠ .eof))

/-- The buffer received and not yet fed. -/
def Pump.inHand : Pump τ → List (List UInt8)
  | .advance buf | .advanceMore buf => [buf]
  | _ => []

/-- The events drained and not yet dispatched. -/
def Resume.toDispatch : Resume → List Event
  | .dispatch events _ => events
  | _ => []

def Pump.toDispatch : Pump τ → List Event
  | .dispatch events _ => events
  | .call _ k | .inCall k => k.toDispatch
  | _ => []

/-- The event queue may hold events: between `advance` and the drain. -/
def Pump.parsing : Pump τ → Bool
  | .tryRecv | .advanceMore _ | .drain _ => true
  | _ => false

/-- The pump has left its loop, for the final frame and the exit. -/
def Resume.exiting : Resume → Bool
  | .finalRendered | .exited => true
  | _ => false

def Pump.exiting : Pump τ → Bool
  | .eofSnapshot | .eofRender _ | .exitCode | .storeCode _ | .swapAlive _ => true
  | .notifyExit _ | .done => true
  | .call _ k | .inCall k => k.exiting
  | _ => false

/-- The callback cloned and not yet entered. -/
def Pump.pending : Pump τ → List (HostCall τ)
  | .call c _ => [c]
  | _ => []

@[simp] theorem chunks_append (ms ns : List IoEvent) : chunks (ms ++ ns) = chunks ms ++ chunks ns :=
  List.filterMap_append

@[simp] theorem chunks_bytes (buf : List UInt8) : chunks [.bytes buf] = [buf] := rfl

@[simp] theorem chunks_eof : chunks [.eof] = [] := rfl

theorem beforeEof_bytes (bufs : List (List UInt8)) (ms : List IoEvent) :
    beforeEof (bufs.map .bytes ++ ms) = bufs ++ beforeEof ms := by
  induction bufs with
  | nil => rfl
  | cons buf bufs ih => simpa [beforeEof, chunks, IoEvent.chunk] using ih

@[simp] theorem Resume.next_inHand (k : Resume) : (k.next : Pump τ).inHand = [] := by
  fun_cases Resume.next k <;> rfl

@[simp] theorem Resume.next_toDispatch (k : Resume) :
    (k.next : Pump τ).toDispatch = k.toDispatch := by
  fun_cases Resume.next k <;> rfl

@[simp] theorem Resume.next_parsing (k : Resume) : (k.next : Pump τ).parsing = false := by
  fun_cases Resume.next k <;> rfl

@[simp] theorem Resume.next_pending (k : Resume) : (k.next : Pump τ).pending = [] := by
  fun_cases Resume.next k <;> rfl

@[simp] theorem lookup_inHand (c : HostCall τ) (k : Resume) : (s.lookup c k).inHand = [] := by
  unfold State.lookup
  split
  · rfl
  · simp

@[simp] theorem lookup_toDispatch (c : HostCall τ) (k : Resume) :
    (s.lookup c k).toDispatch = k.toDispatch := by
  unfold State.lookup
  split
  · rfl
  · simp

@[simp] theorem lookup_parsing (c : HostCall τ) (k : Resume) :
    (s.lookup c k).parsing = false := by
  unfold State.lookup
  split
  · rfl
  · simp

@[simp] theorem lookup_pending (c : HostCall τ) (k : Resume) :
    (s.lookup c k).pending = [c].filter s.callbacks.has := by
  unfold State.lookup
  split
  · simp_all [Pump.pending]
  · simp_all

/-! ## What the other threads leave alone -/

/-- A step that is not the pump's, seen from the pump. -/
structure Beside (a : Label) (s s' : State τ) : Prop where
  pump : s'.pump = s.pump ∨ s.pump = .unspawned ∧ s'.pump = .recv
  term : s'.term = s.term
  queue : s'.queue = s.queue
  received : s'.received = s.received
  fed : s'.fed = s.fed
  queued : s'.queued = s.queued
  dispatched : s'.dispatched = s.dispatched
  replies : s'.replies = s.replies
  chan : ∃ ms, s'.chan = s.chan ++ ms ∧ s'.sent = s.sent ++ ms
  calls : ∃ codes : List Int32, s'.calls = s.calls ++ codes.map .exit
  reader : (∀ n, a ≠ .reader n) → s'.reader = s.reader

theorem Beside.inHand {a : Label} (h : Beside a s s') : s'.pump.inHand = s.pump.inHand := by
  rcases h.pump with hp | ⟨hp, hp'⟩
  · rw [hp]
  · rw [hp, hp']
    rfl

theorem watcherStep_exits (h : watcherStep s = some s') :
    ∃ codes : List Int32, s'.calls = s.calls ++ codes.map .exit := by
  cases watcherStep_move h with
  | call => exact ⟨[_], rfl⟩
  | _ => exact ⟨[], by simp⟩

theorem readerStep_chan {n : Nat} (h : readerStep n s = some s') :
    ∃ ms, s'.chan = s.chan ++ ms ∧ s'.sent = s.sent ++ ms := by
  cases readerStep_move h with
  | sendBytes | sendEof => exact ⟨[_], rfl, rfl⟩
  | _ => exact ⟨[], by simp⟩

theorem dropStep_chan (h : dropStep s = some s') :
    ∃ ms, s'.chan = s.chan ++ ms ∧ s'.sent = s.sent ++ ms := by
  cases dropStep_move h with
  | sendEof => exact ⟨[_], rfl, rfl⟩
  | _ => exact ⟨[], by simp⟩

theorem step_beside {a : Label} (ha : a ≠ .pump) (h : step advance a s = some s')
    (hph : Phases s) : Beside a s s' := by
  have hsame : ∃ ms, s.chan = s.chan ++ ms ∧ s.sent = s.sent ++ ms := ⟨[], by simp⟩
  have hquiet : ∃ codes : List Int32, s.calls = s.calls ++ codes.map .exit := ⟨[], by simp⟩
  cases a with
  | pump => exact absurd rfl ha
  | start =>
      have hpump := hph.pump
      cases startStep_move h <;> constructor <;> first | assumption | simp_all
  | watcher =>
      have hcalls := watcherStep_exits h
      rcases watcherStep_frame h with ⟨_, _, _, calls, rfl⟩
      exact ⟨.inl rfl, rfl, rfl, rfl, rfl, rfl, rfl, rfl, hsame, hcalls, fun _ => rfl⟩
  | drop =>
      have hchan := dropStep_chan h
      rcases dropStep_frame h with ⟨_, _, _, _, _, _, _, _, rfl⟩
      exact ⟨.inl rfl, rfl, rfl, rfl, rfl, rfl, rfl, rfl, hchan, hquiet, fun _ => rfl⟩
  | reader n =>
      have hchan := readerStep_chan h
      rcases readerStep_frame h with ⟨_, _, _, _, rfl⟩
      exact ⟨.inl rfl, rfl, rfl, rfl, rfl, rfl, rfl, rfl, hchan, hquiet,
        fun hno => absurd rfl (hno n)⟩
  | writer =>
      rcases writerStep_frame h with ⟨_, _, _, rfl⟩
      exact ⟨.inl rfl, rfl, rfl, rfl, rfl, rfl, rfl, rfl, hsame, hquiet, fun _ => rfl⟩
  | beginDrop on =>
      rcases beginDropStep_frame h with ⟨-, -, -, rfl⟩
      exact ⟨.inl rfl, rfl, rfl, rfl, rfl, rfl, rfl, rfl, hsame, hquiet, fun _ => rfl⟩
  | _ =>
      rcases outside_frame rfl h with ⟨_, _, _, _, _, _, rfl⟩
      exact ⟨.inl rfl, rfl, rfl, rfl, rfl, rfl, rfl, rfl, hsame, hquiet, fun _ => rfl⟩

/-! ## Messages -/

/-- The messages taken are those sent, in order, and an `Eof` is the last one. -/
structure Taken (s : State τ) : Prop where
  sent : s.sent = s.received ++ s.chan
  received : s.received =
    (chunks s.received).map .bytes ++ if s.pump.sawEof then [.eof] else []
  reader : s.reader = .done → .eof ∈ s.sent

theorem init_taken (t₀ : τ) (title : String) (cbs : Callbacks) (code : Int32) :
    Taken (init t₀ title cbs code) := by
  constructor <;> simp [init, chunks, Pump.sawEof]

/-- The first `Eof` is kept: the pump takes nothing after it. -/
theorem Taken.eof_received (hs : Taken s) : .eof ∈ s.received ↔ s.pump.sawEof = true := by
  constructor
  · intro hmem
    by_contra hno
    rw [hs.received, if_neg hno] at hmem
    simp at hmem
  · intro hsaw
    rw [hs.received, if_pos hsaw]
    simp

/-- The reader ends with an `Eof`, so the channel is never found disconnected. -/
theorem Taken.not_disconnected (hs : Taken s) (hp : s.pump = .recv) (hc : s.chan = []) :
    s.sendersGone = false := by
  by_contra hgone
  have hreader : s.reader = .done := by
    simp only [State.sendersGone, Bool.and_eq_true, Bool.not_eq_false, beq_iff_eq] at hgone
    exact hgone.1
  have hmem : .eof ∈ s.received := by
    have hsent := hs.reader hreader
    rwa [hs.sent, hc, List.append_nil] at hsent
  rw [hs.eof_received, hp] at hmem
  cases hmem

/-- The pump takes the next message, before it has seen an `Eof`, or none. -/
theorem pumpStep_received (h : pumpStep advance s = some s') :
    (s'.received = s.received ∧ s'.chan = s.chan ∧ s'.pump.sawEof = s.pump.sawEof) ∨
    (∃ m, s.chan = m :: s'.chan ∧ s'.received = s.received ++ [m] ∧
      s.pump.sawEof = false ∧ s'.pump.sawEof = decide (m = .eof)) ∨
    (s.pump = .recv ∧ s.chan = [] ∧ s.sendersGone = true) := by
  cases pumpStep_move h with
  | recvBytes hp hc | tryBytes hp hc | recvEof hp hc | tryEof hp hc =>
      exact .inr (.inl ⟨_, hc, rfl, by rw [hp]; rfl, rfl⟩)
  | disconnected hp hc hgone => exact .inr (.inr ⟨hp, hc, hgone⟩)
  | advance hp => rcases hp with hp | hp <;> exact .inl ⟨rfl, rfl, by rw [hp]; rfl⟩
  | inCall hp _ => exact .inl ⟨rfl, rfl, by rw [hp]; exact Resume.next_sawEof _⟩
  | dispatchCall hp _ | render hp | eofRender hp | notifyExit hp =>
      exact .inl ⟨rfl, rfl, by rw [hp]; exact lookup_sawEof _ _ _⟩
  | _ => exact .inl ⟨rfl, rfl, by simp_all [Pump.sawEof, Resume.sawEof]⟩

theorem pumpStep_taken (h : pumpStep advance s = some s') (hs : Taken s) : Taken s' := by
  have hframe : s'.sent = s.sent ∧ s'.reader = s.reader := by
    rcases pumpStep_frame h with ⟨_, _, _, _, _, _, _, _, _, _, _, _, _, _, rfl⟩
    exact ⟨rfl, rfl⟩
  rcases hframe with ⟨hsent', hreader'⟩
  have hreceived := hs.received
  rcases pumpStep_received h with ⟨hr, hc, hsaw⟩ | ⟨m, hc, hr, hsaw, hsaw'⟩ | ⟨hp, hc, hgone⟩
  · refine ⟨by rw [hsent', hr, hc, hs.sent], by rwa [hr, hsaw], ?_⟩
    rw [hreader', hsent']
    exact hs.reader
  · refine ⟨by rw [hsent', hr, hs.sent, hc]; simp, ?_, ?_⟩
    · rw [hsaw] at hreceived
      cases m <;> simpa [hr, hsaw'] using hreceived
    · rw [hreader', hsent']
      exact hs.reader
  · -- the channel is never found disconnected
    rw [hs.not_disconnected hp hc] at hgone
    cases hgone

/-- The reader ends after its `Eof`, or once the pump has taken one. -/
theorem readerStep_done {n : Nat} (h : readerStep n s = some s') (hs : Taken s)
    (hr : s'.reader = .done) : .eof ∈ s'.sent := by
  cases readerStep_move h with
  | sendEof => simp
  | gone _ hgone =>
      -- the pump has left its loop, by an `Eof`
      have hp : s.pump = .done := by
        unfold State.receiversGone at hgone
        cases hp : s.pump <;> simp_all
      have hmem : .eof ∈ s.received := hs.eof_received.2 (by rw [hp]; rfl)
      rw [hs.sent]
      exact List.mem_append_left _ hmem
  | _ => cases hr

theorem step_taken {a : Label} (h : step advance a s = some s') (hph : Phases s)
    (hs : Taken s) : Taken s' := by
  by_cases ha : a = .pump
  · subst ha
    exact pumpStep_taken h hs
  · have hbeside := step_beside ha h hph
    rcases hbeside.chan with ⟨ms, hchan, hsent⟩
    refine ⟨by rw [hsent, hs.sent, hbeside.received, hchan, List.append_assoc], ?_, ?_⟩
    · have hreceived := hs.received
      rw [hbeside.received]
      rcases hbeside.pump with hp | ⟨hp, hp'⟩
      · rwa [hp]
      · rw [hp] at hreceived
        rwa [hp']
    · intro hr
      by_cases hread : ∃ n, a = .reader n
      · rcases hread with ⟨n, rfl⟩
        exact readerStep_done h hs hr
      · rw [hbeside.reader (by simpa using hread)] at hr
        rw [hsent]
        exact List.mem_append_left _ (hs.reader hr)

/-! ## Bytes and events -/

/-- The buffers taken were fed to the terminal one by one, but for the one in
hand. -/
structure Parsed (advance : τ → List UInt8 → τ × List Event) (t₀ : τ) (s : State τ) : Prop where
  fed : s.fed ++ s.pump.inHand.flatten = (chunks s.received).flatten
  term : feed advance t₀ (chunks s.received) =
    ((feed advance s.term s.pump.inHand).1, s.queued ++ (feed advance s.term s.pump.inHand).2)

theorem init_parsed (t₀ : τ) (title : String) (cbs : Callbacks) (code : Int32) :
    Parsed advance t₀ (init t₀ title cbs code) := by
  constructor <;> simp [init, chunks, Pump.inHand]

theorem pumpStep_parsed (h : pumpStep advance s = some s') (hs : Parsed advance t₀ s) :
    Parsed advance t₀ s' := by
  rcases hs with ⟨hfed, hterm⟩
  cases pumpStep_move h with
  | recvBytes hp | tryBytes hp | recvEof hp | tryEof hp =>
      rw [hp] at hfed hterm
      constructor <;> simp_all [Pump.inHand, feed_append]
  | @advance buf hp =>
      have hin : s.pump.inHand = [buf] := by
        rcases hp with hp | hp <;> rw [hp] <;> rfl
      rw [hin] at hfed hterm
      constructor <;> simp_all [Pump.inHand, State.advance]
  | _ => constructor <;> grind [Pump.inHand, lookup_inHand, Resume.next_inHand]

theorem step_parsed {a : Label} (h : step advance a s = some s') (hph : Phases s)
    (hs : Parsed advance t₀ s) : Parsed advance t₀ s' := by
  by_cases ha : a = .pump
  · subst ha
    exact pumpStep_parsed h hs
  · have hbeside := step_beside ha h hph
    rcases hs with ⟨hfed, hterm⟩
    constructor
    · rwa [hbeside.fed, hbeside.received, hbeside.inHand]
    · rwa [hbeside.term, hbeside.received, hbeside.queued, hbeside.inHand]

/-- What parsing queued is dispatched in order, but for what waits in the
pump's list and in the queue. -/
structure Dispatched (s : State τ) : Prop where
  events : s.dispatched ++ s.pump.toDispatch ++ s.queue = s.queued
  queue : s.pump.parsing = false → s.queue = []
  replies : s.replies = s.dispatched.filterMap Event.reply

theorem init_dispatched (t₀ : τ) (title : String) (cbs : Callbacks) (code : Int32) :
    Dispatched (init t₀ title cbs code) := by
  constructor <;> simp [init, Pump.toDispatch]

/-- An event for a callback has no reply. -/
theorem Event.reply_of_hostCall {e : Event} {c : HostCall τ} (h : e.hostCall = some c) :
    e.reply = none := by
  cases e <;> simp_all [Event.hostCall, Event.reply]

theorem pumpStep_dispatched (h : pumpStep advance s = some s') (hs : Dispatched s) :
    Dispatched s' := by
  rcases hs with ⟨hevents, hqueue, hreplies⟩
  cases pumpStep_move h with
  | @advance buf hp =>
      have hnone : s.pump.toDispatch = [] := by
        rcases hp with hp | hp <;> rw [hp] <;> rfl
      rw [hnone, List.append_nil] at hevents
      refine ⟨?_, by simp [Pump.parsing], hreplies⟩
      simp [Pump.toDispatch, State.advance, ← hevents]
  | @dispatchCall e events saw_eof c hp he =>
      have hno := Event.reply_of_hostCall he
      rw [hp] at hevents hqueue
      have hlist : s.dispatched ++ e :: events ++ s.queue = s.queued := hevents
      refine ⟨?_, fun _ => hqueue rfl, by simp [hreplies, hno]⟩
      simpa [Resume.toDispatch] using hlist
  | _ =>
      constructor <;> grind -ring -linarith [Pump.toDispatch, Pump.parsing, lookup_toDispatch,
        lookup_parsing, Resume.next_toDispatch, Resume.next_parsing, Resume.toDispatch]

theorem step_dispatched {a : Label} (h : step advance a s = some s') (hph : Phases s)
    (hs : Dispatched s) : Dispatched s' := by
  by_cases ha : a = .pump
  · subst ha
    exact pumpStep_dispatched h hs
  · have hbeside := step_beside ha h hph
    rcases hs with ⟨hevents, hqueue, hreplies⟩
    have hpump : s'.pump.toDispatch = s.pump.toDispatch ∧ s'.pump.parsing = s.pump.parsing := by
      rcases hbeside.pump with hp | ⟨hp, hp'⟩
      · simp [hp]
      · rw [hp, hp']
        exact ⟨rfl, rfl⟩
    constructor
    · rwa [hbeside.dispatched, hbeside.queue, hbeside.queued, hpump.1]
    · rwa [hbeside.queue, hpump.2]
    · rwa [hbeside.replies, hbeside.dispatched]

/-! ## Whole runs -/

/-- What every state keeps, of a run from a fresh start on content `t₀`. -/
structure StreamInv (advance : τ → List UInt8 → τ × List Event) (t₀ : τ) (s : State τ) :
    Prop where
  taken : Taken s
  parsed : Parsed advance t₀ s
  dispatched : Dispatched s

theorem steps_streamInv {title : String} {cbs : Callbacks} {code : Int32}
    {C : Lts.StepCond (State τ) Label}
    (h : (machine advance).Steps C (init t₀ title cbs code) s) : StreamInv advance t₀ s := by
  have hph := init_phases (init_Init t₀ title cbs code)
  refine steps_invariant (StreamInv advance t₀) ?_ h hph ?_
  · rintro a s s' - hstep hph ⟨htaken, hparsed, hdispatched⟩
    exact ⟨step_taken hstep hph htaken, step_parsed hstep hph hparsed,
      step_dispatched hstep hph hdispatched⟩
  · exact ⟨init_taken t₀ title cbs code, init_parsed t₀ title cbs code,
      init_dispatched t₀ title cbs code⟩

/-- What was taken comes before the first `Eof` sent. -/
theorem Taken.beforeEof_sent (hs : Taken s) :
    beforeEof s.sent =
      chunks s.received ++ if s.pump.sawEof then [] else beforeEof s.chan := by
  conv_lhs => rw [hs.sent, hs.received, List.append_assoc, beforeEof_bytes]
  split
  · rfl
  · rfl

/-- On the exit path nothing is in hand. -/
theorem exiting_views (h : s.pump.exiting = true) :
    s.pump.sawEof = true ∧ s.pump.inHand = [] ∧ s.pump.toDispatch = [] ∧
      s.pump.parsing = false := by
  cases hp : s.pump with
  | call _ k | inCall k =>
      rw [hp] at h
      cases k <;> first | exact ⟨rfl, rfl, rfl, rfl⟩ | cases h
  | _ =>
      rw [hp] at h
      first | exact ⟨rfl, rfl, rfl, rfl⟩ | cases h

/-- On the exit path everything before the first `Eof` has been parsed and its
events dispatched. -/
theorem StreamInv.complete (hs : StreamInv advance t₀ s) (h : s.pump.exiting = true) :
    s.fed = (beforeEof s.sent).flatten ∧
      (s.term, s.dispatched) = feed advance t₀ (beforeEof s.sent) := by
  rcases exiting_views h with ⟨hsaw, hin, hlist, hparsing⟩
  have hsent : beforeEof s.sent = chunks s.received := by
    rw [hs.taken.beforeEof_sent, if_pos hsaw, List.append_nil]
  have hfed := hs.parsed.fed
  have hterm := hs.parsed.term
  have hevents := hs.dispatched.events
  rw [hin] at hfed hterm
  rw [hlist, hs.dispatched.queue hparsing] at hevents
  rw [hsent, hterm]
  simp_all

end RataShell.Session
