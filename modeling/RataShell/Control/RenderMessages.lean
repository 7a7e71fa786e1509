import Mathlib.Data.Fintype.Basic
import Mathlib.Data.Fintype.Sets
import Mathlib.Logic.Function.Basic
import RataShell.Lib.Machine
import RataShell.Lib.Mailbox
import RataShell.Control.RenderEvent

/-!
# Render events from their producers to the control

`RataRenderProc` leaves the copy of an event in `FPendingBuf` and `FPendingEvent`, under
`FRenderLock`, and posts `WM_RATA_RENDER`; any number of threads call it. For each
message `HandleRenderMessage` takes what is there, under the same lock.

* `Sound`: the lock and what is in the slot.
* `delivered_reachable`: whole events, each at most once, and at last the latest one.
-/

namespace RataShell.Control.RenderEvents

/-! ## The machine -/

/-- Where a call of `RataRenderProc` is; the buffer is made before the lock is taken. -/
inductive Caller where
  | idle
  | storing (c : Call)
  | entered (c : Call)
  | bufSet (c : Call)
  | eventSet
  | posting
deriving DecidableEq

/-- Where `HandleRenderMessage` is. -/
inductive Handler where
  | idle
  | started
  | entered
  | noEvent
  | cellsTaken (cells : Bytes)
  | eventTaken (r : Received)
  | eventCleared (r : Received)
  | bufCleared (r : Received)
  | consumed (r : Received)
deriving DecidableEq

/-- Who is in the critical section. -/
inductive Thread (ι : Type) where
  | caller (i : ι)
  | ui
deriving DecidableEq

/-- The fields of the control and the messages in its queue; `woken` says that the last
`RataRenderProc` found a handle, which has not been destroyed since with a message in
its queue. `stored` and `received` are the events so far. -/
structure State (ι : Type) where
  lock : Option (Thread ι)
  pendingBuf : Bytes
  pendingEvent : Option Bytes
  handle : Bool
  messages : Nat
  woken : Bool
  last : Last
  callers : ι → Caller
  handler : Handler
  stored : List Call
  received : List Received

/-- A thread calls `RataRenderProc`, a caller goes on, the UI thread does, and the
handle comes and goes. -/
inductive Label (ι : Type) where
  | call (i : ι) (c : Option Call)
  | caller (i : ι)
  | ui
  | createHandle
  | destroyHandle

variable {ι : Type}

section Machine

variable [DecidableEq ι]

namespace State

/-- The caller `i` is at `c` now. -/
def at' (s : State ι) (i : ι) (c : Caller) : State ι :=
  { s with callers := Function.update s.callers i c }

end State

/-- `RataRenderProc`; `StoreRenderEvent` exits when it gets no event. -/
def call (i : ι) (c : Option Call) (s : State ι) : Option (State ι) :=
  match s.callers i with
  | .idle => some (s.at' i (c.elim .posting .storing))
  | _ => none

/-- The next step of `RataRenderProc`. -/
def callerStep (i : ι) (s : State ι) : Option (State ι) :=
  match s.callers i with
  | .idle => none
  | .storing c =>
      if s.lock = none then some ({ s with lock := some (.caller i) }.at' i (.entered c)) else none
  | .entered c => some ({ s with pendingBuf := c.buffer }.at' i (.bufSet c))
  | .bufSet c =>
      some ({ s with pendingEvent := some c.buffer, stored := s.stored ++ [c] }.at' i .eventSet)
  | .eventSet => some ({ s with lock := none }.at' i .posting)
  | .posting =>
      if s.handle then
        some ({ s with messages := s.messages + 1, woken := true }.at' i .idle)
      else some ({ s with woken := false }.at' i .idle)

/-- The next step of the message loop and of `HandleRenderMessage`. -/
def uiStep (s : State ι) : Option (State ι) :=
  match s.handler with
  | .idle =>
      if 0 < s.messages then some { s with messages := s.messages - 1, handler := .started }
      else none
  | .started =>
      if s.lock = none then some { s with lock := some .ui, handler := .entered } else none
  | .entered =>
      match s.pendingEvent with
      | none => some { s with handler := .noEvent }
      | some _ => some { s with handler := .cellsTaken s.pendingBuf }
  | .noEvent => some { s with lock := none, handler := .idle }
  | .cellsTaken cells =>
      match s.pendingEvent with
      | none => none
      | some b => some { s with handler := .eventTaken (receive b.event cells) }
  | .eventTaken r =>
      some { s with
        pendingEvent := none, received := s.received ++ [r], handler := .eventCleared r }
  | .eventCleared r => some { s with pendingBuf := .nil, handler := .bufCleared r }
  | .bufCleared r => some { s with lock := none, handler := .consumed r }
  | .consumed r => some { s with last := handleRenderMessage r s.last, handler := .idle }

/-- `CreateWnd` and `DestroyWindowHandle`, between two messages. -/
def handleStep (handle : Bool) (s : State ι) : Option (State ι) :=
  match s.handler with
  | .idle =>
      if handle then some { s with handle := true }
      else
        -- the messages of a window go with it
        some { s with handle := false, messages := 0, woken := s.woken && s.messages = 0 }
  | _ => none

def step (a : Label ι) (s : State ι) : Option (State ι) :=
  match a with
  | .call i c => call i c s
  | .caller i => callerStep i s
  | .ui => uiStep s
  | .createHandle => handleStep true s
  | .destroyHandle => handleStep false s

/-- A new control. -/
def created : State ι where
  lock := none
  pendingBuf := .nil
  pendingEvent := none
  handle := false
  messages := 0
  woken := true
  last := ⟨0, 0, 0, 0, 0, []⟩
  callers _ := .idle
  handler := .idle
  stored := []
  received := []

variable (ι) in
def machine : Lts.Machine (State ι) (Label ι) where
  Init s := s = created
  step := step

end Machine

/-- All posted messages are processed, and no call is yet to post its own. -/
def Quiet (s : State ι) : Prop :=
  s.messages = 0 ∧ s.handler = .idle ∧ ∀ i, s.callers i ≠ .eventSet ∧ s.callers i ≠ .posting

instance [Fintype ι] (s : State ι) : Decidable (Quiet s) :=
  inferInstanceAs (Decidable (_ ∧ _ ∧ ∀ i, s.callers i ≠ .eventSet ∧ s.callers i ≠ .posting))

/-! ## The critical section -/

/-- The caller is in the critical section. -/
def Caller.inside : Caller → Bool
  | .entered _ | .bufSet _ | .eventSet => true
  | _ => false

/-- The handler is in the critical section. -/
def Handler.inside : Handler → Bool
  | .idle | .started | .consumed _ => false
  | _ => true

/-- What a caller knows of `FPendingBuf` and `FPendingEvent`. -/
def Caller.Knows (buf : Bytes) (event : Option Bytes) : Caller → Prop
  | .bufSet c => buf = c.buffer
  | .entered _ | .eventSet => buf = event.getD .nil
  | _ => True

/-- What the handler knows of `FPendingBuf` and `FPendingEvent`. -/
def Handler.Knows (buf : Bytes) (event : Option Bytes) : Handler → Prop
  | .entered | .noEvent => buf = event.getD .nil
  | .cellsTaken cells => event = some cells
  | .eventTaken r => ∃ b, event = some b ∧ r = receive b.event b
  | .eventCleared _ => event = none
  | .bufCleared _ => buf = event.getD .nil
  | _ => True

/-- The lock belongs to the thread in the critical section, which knows what is in the
two fields; without one, `FPendingEvent` points into `FPendingBuf`. -/
structure Guarded (lock : Option (Thread ι)) (callers : ι → Caller) (handler : Handler)
    (buf : Bytes) (event : Option Bytes) : Prop where
  callers_lock : ∀ i, (callers i).inside = true ↔ lock = some (.caller i)
  handler_lock : handler.inside = true ↔ lock = some .ui
  callers_know : ∀ i, (callers i).Knows buf event
  handler_knows : handler.Knows buf event
  free : lock = none → buf = event.getD .nil

theorem Caller.knows_of_outside {c : Caller} (h : c.inside = false) (buf : Bytes)
    (event : Option Bytes) : c.Knows buf event := by
  cases c with
  | idle | storing | posting => trivial
  | entered | bufSet | eventSet => cases h

theorem Handler.knows_of_outside {h : Handler} (hout : h.inside = false) (buf : Bytes)
    (event : Option Bytes) : h.Knows buf event := by
  cases h with
  | idle | started | consumed => trivial
  | entered | noEvent | cellsTaken | eventTaken | eventCleared | bufCleared => cases hout

namespace Guarded

variable {lock : Option (Thread ι)} {callers : ι → Caller} {handler h : Handler}
  {buf buf' : Bytes} {event event' : Option Bytes} {i : ι} {c : Caller}

section

variable (hs : Guarded lock callers handler buf event)

include hs

theorem lock_eq (hin : (callers i).inside = true) : lock = some (.caller i) :=
  (hs.callers_lock i).1 hin

theorem others_outside (hin : (callers i).inside = true) {j : ι} (hj : j ≠ i) :
    (callers j).inside = false := by
  rw [Bool.eq_false_iff]
  intro hjin
  have hsame := (hs.lock_eq hin).symm.trans (hs.lock_eq hjin)
  cases hsame
  exact hj rfl

theorem handler_outside (hin : (callers i).inside = true) : handler.inside = false := by
  rw [Bool.eq_false_iff]
  intro hui
  have hsame := (hs.lock_eq hin).symm.trans (hs.handler_lock.1 hui)
  cases hsame

theorem callers_outside (hin : handler.inside = true) (j : ι) : (callers j).inside = false := by
  rw [Bool.eq_false_iff]
  intro hjin
  have hsame := (hs.handler_lock.1 hin).symm.trans (hs.lock_eq hjin)
  cases hsame

/-- The handler goes on outside the critical section. -/
theorem ui_outside (hout : handler.inside = false) (hh : h.inside = false) :
    Guarded lock callers h buf event where
  callers_lock := hs.callers_lock
  handler_lock := by rw [hh, ← hs.handler_lock, hout]
  callers_know := hs.callers_know
  handler_knows := h.knows_of_outside hh _ _
  free := hs.free

/-- The handler in the critical section goes on there. -/
theorem ui_inside (hin : handler.inside = true) (hh : h.inside = true)
    (hknows : h.Knows buf' event') : Guarded lock callers h buf' event' where
  callers_lock := hs.callers_lock
  handler_lock := by rw [hh, ← hs.handler_lock, hin]
  callers_know j := Caller.knows_of_outside (hs.callers_outside hin j) _ _
  handler_knows := hknows
  free hfree := by
    rw [hs.handler_lock.1 hin] at hfree
    cases hfree

/-- The handler leaves the critical section. -/
theorem ui_leaves (hin : handler.inside = true) (hh : h.inside = false)
    (hbuf : buf = event.getD .nil) : Guarded none callers h buf event where
  callers_lock j := by simp [hs.callers_outside hin j]
  handler_lock := by simp [hh]
  callers_know := hs.callers_know
  handler_knows := h.knows_of_outside hh _ _
  free _ := hbuf

end

/-- The handler takes the lock. -/
theorem ui_enters (hs : Guarded none callers handler buf event) (hh : h.inside = true)
    (hknows : h.Knows buf event) : Guarded (some .ui) callers h buf event where
  callers_lock j := by simpa using hs.callers_lock j
  handler_lock := by simp [hh]
  callers_know := hs.callers_know
  handler_knows := hknows
  free hfree := by cases hfree

section Callers

variable [DecidableEq ι]

/-- A caller takes the lock. -/
theorem caller_enters (hs : Guarded none callers handler buf event) (hc : c.inside = true)
    (hknows : c.Knows buf event) :
    Guarded (some (.caller i)) (Function.update callers i c) handler buf event := by
  have hout : ∀ j, (callers j).inside = false := fun j => by simpa using hs.callers_lock j
  have hui : handler.inside = false := by simpa using hs.handler_lock
  refine ⟨fun j => ?_, by simp [hui], fun j => ?_, hs.handler_knows, fun h => by cases h⟩
  · by_cases hj : j = i
    · subst hj
      simp [hc]
    · simp [Function.update_of_ne hj, hout, Ne.symm hj]
  · by_cases hj : j = i
    · subst hj
      rw [Function.update_self]
      exact hknows
    · rw [Function.update_of_ne hj]
      exact hs.callers_know j

variable (hs : Guarded lock callers handler buf event)

include hs

/-- A caller goes on outside the critical section. -/
theorem caller_outside (hout : (callers i).inside = false) (hc : c.inside = false) :
    Guarded lock (Function.update callers i c) handler buf event := by
  refine ⟨fun j => ?_, hs.handler_lock, fun j => ?_, hs.handler_knows, hs.free⟩
  · by_cases hj : j = i
    · subst hj
      rw [Function.update_self, hc, ← hs.callers_lock j, hout]
    · rw [Function.update_of_ne hj]
      exact hs.callers_lock j
  · by_cases hj : j = i
    · subst hj
      rw [Function.update_self]
      exact c.knows_of_outside hc buf event
    · rw [Function.update_of_ne hj]
      exact hs.callers_know j

/-- The caller in the critical section goes on there. -/
theorem caller_inside (hin : (callers i).inside = true) (hc : c.inside = true)
    (hknows : c.Knows buf' event') :
    Guarded lock (Function.update callers i c) handler buf' event' := by
  have hlock := hs.lock_eq hin
  have hui := hs.handler_outside hin
  refine ⟨fun j => ?_, hs.handler_lock, fun j => ?_, handler.knows_of_outside hui _ _, ?_⟩
  · by_cases hj : j = i
    · subst hj
      simp [hc, hlock]
    · rw [Function.update_of_ne hj]
      exact hs.callers_lock j
  · by_cases hj : j = i
    · subst hj
      rw [Function.update_self]
      exact hknows
    · rw [Function.update_of_ne hj]
      exact Caller.knows_of_outside (hs.others_outside hin hj) _ _
  · intro hfree
    rw [hlock] at hfree
    cases hfree

/-- A caller leaves the critical section. -/
theorem caller_leaves (hin : (callers i).inside = true) (hc : c.inside = false)
    (hbuf : buf = event.getD .nil) :
    Guarded none (Function.update callers i c) handler buf event := by
  have hui := hs.handler_outside hin
  refine ⟨fun j => ?_, by simp [hui], fun j => ?_, hs.handler_knows, fun _ => hbuf⟩
  · by_cases hj : j = i
    · subst hj
      simp [hc]
    · simp [Function.update_of_ne hj, hs.others_outside hin hj]
  · by_cases hj : j = i
    · subst hj
      rw [Function.update_self]
      exact c.knows_of_outside hc _ _
    · rw [Function.update_of_ne hj]
      exact hs.callers_know j

end Callers

end Guarded

/-! ## The slot over a run -/

/-- The caller has stored its event and is yet to post the message. -/
def Caller.owes : Caller → Bool
  | .eventSet | .posting => true
  | _ => false

/-- The handler is yet to take what is in the slot. -/
def Handler.takes : Handler → Bool
  | .started | .entered | .cellsTaken _ | .eventTaken _ => true
  | _ => false

/-- The event that the handler has taken and that `last` does not show yet. -/
def Handler.unshown : Handler → Option Received
  | .eventCleared r | .bufCleared r | .consumed r => some r
  | _ => none

/-- Someone sees to it that what is in the slot is taken. -/
def Awake (messages : Nat) (handler : Handler) (callers : ι → Caller) : Prop :=
  0 < messages ∨ handler.takes = true ∨ ∃ i, (callers i).owes = true

/-- What was stored and received goes through a slot of events; the control shows the one
taken last. -/
structure Filled (stored : List Call) (received : List Received) (event : Option Bytes)
    (handler : Handler) (last : Last) (m : Mailbox.Slot Call) : Prop where
  put : m.put = stored
  taken : m.taken.map Call.received = received
  pending : event = m.pending.map Call.buffer
  unshown : ∀ r, handler.unshown = some r → received.getLast? = some r
  shown : handler.unshown = none →
    ∀ r, received.getLast? = some r → ∃ before, last = handleRenderMessage r before

structure Sound (s : State ι) : Prop where
  guarded : Guarded s.lock s.callers s.handler s.pendingBuf s.pendingEvent
  filled : ∃ m : Mailbox.Slot Call,
    m.Sound ∧ Filled s.stored s.received s.pendingEvent s.handler s.last m
  awake : s.pendingEvent ≠ none → s.woken = true → Awake s.messages s.handler s.callers

/-- A handler that takes nothing any more is not the one who wakes. -/
theorem Awake.handler {messages : Nat} {handler : Handler} {callers : ι → Caller}
    (hs : Awake messages handler callers) (htakes : handler.takes = false) (h : Handler) :
    Awake messages h callers := by
  rcases hs with hmessages | htaken | howes
  · exact .inl hmessages
  · rw [htakes] at htaken
    cases htaken
  · exact .inr (.inr howes)

theorem Filled.handler {stored : List Call} {received : List Received} {event : Option Bytes}
    {handler : Handler} {last : Last} {m : Mailbox.Slot Call}
    (hs : Filled stored received event handler last m) {h : Handler}
    (hsame : h.unshown = handler.unshown) : Filled stored received event h last m where
  put := hs.put
  taken := hs.taken
  pending := hs.pending
  unshown := by
    rw [hsame]
    exact hs.unshown
  shown := by
    rw [hsame]
    exact hs.shown

theorem created_sound : Sound (created : State ι) where
  guarded :=
    { callers_lock i := by simp [created, Caller.inside]
      handler_lock := by simp [created, Handler.inside]
      callers_know i := trivial
      handler_knows := trivial
      free _ := rfl }
  filled := ⟨.empty, Mailbox.Slot.empty_sound, rfl, rfl, rfl, fun r h => (by cases h),
    fun _ r h => (by cases h)⟩
  awake h := absurd rfl h

theorem uiStep_sound {s s' : State ι} (h : uiStep s = some s') (hs : Sound s) : Sound s' := by
  rcases hs with ⟨hguarded, ⟨m, hm, hfilled⟩, hawake⟩
  have hknows := hguarded.handler_knows
  cases hhandler : s.handler
  all_goals
    rw [hhandler] at hguarded hknows hfilled hawake
    simp only [uiStep, hhandler] at h
  case idle =>
    split at h
    · cases h
      exact ⟨hguarded.ui_outside rfl rfl, ⟨m, hm, hfilled.handler rfl⟩,
        fun _ _ => .inr (.inl rfl)⟩
    · cases h
  case started =>
    split at h
    · rename_i hlock
      cases h
      rw [hlock] at hguarded
      exact ⟨hguarded.ui_enters rfl (hguarded.free rfl), ⟨m, hm, hfilled.handler rfl⟩,
        fun _ _ => .inr (.inl rfl)⟩
    · cases h
  case entered =>
    split at h
    · rename_i hnone
      cases h
      exact ⟨hguarded.ui_inside rfl rfl hknows, ⟨m, hm, hfilled.handler rfl⟩,
        fun hevent => absurd hnone hevent⟩
    · rename_i b hb
      cases h
      have hbuf : s.pendingBuf = b := by
        rw [hb] at hknows
        exact hknows
      refine ⟨hguarded.ui_inside rfl rfl ?_, ⟨m, hm, hfilled.handler rfl⟩,
        fun _ _ => .inr (.inl rfl)⟩
      exact hb.trans (congrArg some hbuf.symm)
  case noEvent =>
    cases h
    exact ⟨hguarded.ui_leaves rfl rfl hknows, ⟨m, hm, hfilled.handler rfl⟩,
      fun hevent hwoken => (hawake hevent hwoken).handler rfl .idle⟩
  case cellsTaken cells =>
    have hevent : s.pendingEvent = some cells := hknows
    split at h
    · cases h
    · rename_i b hb
      cases h
      cases hb.symm.trans hevent
      exact ⟨hguarded.ui_inside rfl rfl ⟨cells, hevent, rfl⟩, ⟨m, hm, hfilled.handler rfl⟩,
        fun _ _ => .inr (.inl rfl)⟩
  case eventTaken r =>
    cases h
    rcases hknows with ⟨b, hevent, hr⟩
    have hpending := hfilled.pending.symm.trans hevent
    rcases Option.map_eq_some_iff.1 hpending with ⟨c, hc, rfl⟩
    refine ⟨hguarded.ui_inside rfl rfl rfl, ⟨m.take, hm.take, ?_⟩, fun hevent => absurd rfl hevent⟩
    -- the buffer that was read is the one of the call in the slot
    have htaken : m.take.taken.map Call.received = s.received ++ [r] := by
      simp [Mailbox.Slot.take, hc, hfilled.taken, hr, Call.received]
    refine ⟨hfilled.put, htaken, rfl, fun r' hr' => ?_, fun hnone => by cases hnone⟩
    rw [List.getLast?_concat]
    exact hr'
  case eventCleared r =>
    cases h
    have hevent : s.pendingEvent = none := hknows
    refine ⟨hguarded.ui_inside rfl rfl ?_, ⟨m, hm, hfilled.handler rfl⟩,
      fun hne => absurd hevent hne⟩
    change Bytes.nil = s.pendingEvent.getD .nil
    rw [hevent]
    rfl
  case bufCleared r =>
    cases h
    exact ⟨hguarded.ui_leaves rfl rfl hknows, ⟨m, hm, hfilled.handler rfl⟩,
      fun hevent hwoken => (hawake hevent hwoken).handler rfl (.consumed r)⟩
  case consumed r =>
    cases h
    have hlast := hfilled.unshown r rfl
    refine ⟨hguarded.ui_outside rfl rfl,
      ⟨m, hm, hfilled.put, hfilled.taken, hfilled.pending, fun r' h => (by cases h), ?_⟩,
      fun hevent hwoken => (hawake hevent hwoken).handler rfl .idle⟩
    intro _ r' hr'
    cases hlast.symm.trans hr'
    exact ⟨s.last, rfl⟩

theorem handleStep_sound {handle : Bool} {s s' : State ι} (h : handleStep handle s = some s')
    (hs : Sound s) : Sound s' := by
  unfold handleStep at h
  split at h
  · rename_i hidle
    split at h
    · cases h
      exact ⟨hs.guarded, hs.filled, hs.awake⟩
    · cases h
      refine ⟨hs.guarded, hs.filled, fun hevent hwoken => ?_⟩
      -- no message was lost, so that another thread wakes
      rw [Bool.and_eq_true, decide_eq_true_eq] at hwoken
      have hawake := hs.awake hevent hwoken.1
      rw [hwoken.2] at hawake
      exact hawake
  · cases h

variable [DecidableEq ι]

theorem Awake.caller {messages : Nat} {handler : Handler} {callers : ι → Caller} {i : ι}
    {c : Caller} (hs : Awake messages handler callers)
    (hc : (callers i).owes = true → c.owes = true) :
    Awake messages handler (Function.update callers i c) := by
  rcases hs with hmessages | htakes | ⟨j, hj⟩
  · exact .inl hmessages
  · exact .inr (.inl htakes)
  · refine .inr (.inr ⟨j, ?_⟩)
    by_cases hji : j = i
    · subst hji
      simpa using hc hj
    · simpa [Function.update_of_ne hji] using hj

theorem call_sound {i : ι} {c : Option Call} {s s' : State ι} (h : call i c s = some s')
    (hs : Sound s) : Sound s' := by
  unfold call at h
  split at h
  · rename_i hidle
    cases h
    have hout : (s.callers i).inside = false := by rw [hidle]; rfl
    have hc : (c.elim Caller.posting Caller.storing).inside = false := by cases c <;> rfl
    refine ⟨hs.guarded.caller_outside hout hc, hs.filled, fun hevent hwoken => ?_⟩
    exact (hs.awake hevent hwoken).caller fun howes => by rw [hidle] at howes; cases howes
  · cases h

theorem callerStep_sound {i : ι} {s s' : State ι} (h : callerStep i s = some s')
    (hs : Sound s) : Sound s' := by
  unfold callerStep at h
  split at h
  · cases h
  -- before the lock: it is taken where it is free
  · rename_i c hc
    split at h
    · rename_i hlock
      cases h
      have hguarded := hs.guarded
      rw [hlock] at hguarded
      refine ⟨hguarded.caller_enters rfl (hguarded.free rfl), hs.filled, fun hevent hwoken => ?_⟩
      exact (hs.awake hevent hwoken).caller fun howes => by rw [hc] at howes; cases howes
    · cases h
  · rename_i c hc
    cases h
    have hin : (s.callers i).inside = true := by rw [hc]; rfl
    refine ⟨hs.guarded.caller_inside hin rfl rfl, hs.filled, fun hevent hwoken => ?_⟩
    exact (hs.awake hevent hwoken).caller fun howes => by rw [hc] at howes; cases howes
  · -- the event takes the place of the one before it
    rename_i c hc
    cases h
    have hin : (s.callers i).inside = true := by rw [hc]; rfl
    have hbuf : s.pendingBuf = c.buffer := by
      have hknows := hs.guarded.callers_know i
      rwa [hc] at hknows
    rcases hs.filled with ⟨m, hm, hfilled⟩
    refine ⟨hs.guarded.caller_inside hin rfl hbuf, ?_, fun _ _ => ?_⟩
    · refine ⟨m.store c, hm.store c, ?_, hfilled.taken, rfl, hfilled.unshown, hfilled.shown⟩
      exact congrArg (· ++ [c]) hfilled.put
    · exact .inr (.inr ⟨i, by simp [State.at', Caller.owes]⟩)
  · rename_i hc
    cases h
    have hin : (s.callers i).inside = true := by rw [hc]; rfl
    have hbuf : s.pendingBuf = s.pendingEvent.getD .nil := by
      have hknows := hs.guarded.callers_know i
      rwa [hc] at hknows
    refine ⟨hs.guarded.caller_leaves hin rfl hbuf, hs.filled, fun hevent hwoken => ?_⟩
    exact (hs.awake hevent hwoken).caller fun _ => rfl
  · rename_i hc
    have hout : (s.callers i).inside = false := by rw [hc]; rfl
    split at h
    · cases h
      exact ⟨hs.guarded.caller_outside hout rfl, hs.filled, fun _ _ => .inl (Nat.succ_pos _)⟩
    · cases h
      exact ⟨hs.guarded.caller_outside hout rfl, hs.filled, fun _ hwoken => by cases hwoken⟩

theorem step_sound {a : Label ι} {s s' : State ι} (h : step a s = some s') (hs : Sound s) :
    Sound s' := by
  cases a with
  | call i c => exact call_sound h hs
  | caller i => exact callerStep_sound h hs
  | ui => exact uiStep_sound h hs
  | createHandle => exact handleStep_sound h hs
  | destroyHandle => exact handleStep_sound h hs

theorem sound_reachable {s : State ι} (hs : (machine ι).Reachable (fun _ _ => True) s) :
    Sound s := by
  refine Lts.Machine.init_invariant Sound ?_ ?_ hs
  · rintro s rfl
    exact created_sound
  · exact fun a s s' _ hstep hsound => step_sound hstep hsound

/-- At any time what was received is a part of what was stored, in order, each event
whole and at most once. Once all posted messages are processed, and none was lost, the
event stored last is the one received last, and the control shows it. -/
theorem delivered_reachable {s : State ι} (hs : (machine ι).Reachable (fun _ _ => True) s) :
    ∃ taken : List Call, taken.Sublist s.stored ∧ List.Forall₂ Whole taken s.received ∧
      (Quiet s → s.woken = true →
        taken.getLast? = s.stored.getLast? ∧ ∀ c ∈ s.stored.getLast?, Describes c s.last) := by
  have hsound := sound_reachable hs
  rcases hsound.filled with ⟨m, hm, hfilled⟩
  have hsublist := hm.sublist
  rw [hfilled.put] at hsublist
  refine ⟨m.taken, hsublist, ?_, fun hquiet hwoken => ?_⟩
  · rw [← hfilled.taken, List.forall₂_map_right_iff]
    exact List.forall₂_same.2 fun c _ => c.received_whole
  · rcases hquiet with ⟨hmessages, hidle, hcallers⟩
    -- an event that waits is owed a message, and none is under way
    have hevent : s.pendingEvent = none := by
      by_contra hne
      rcases hsound.awake hne hwoken with hpos | htakes | ⟨i, howes⟩
      · omega
      · rw [hidle] at htakes
        cases htakes
      · rcases hcallers i with ⟨hset, hposting⟩
        cases hc : s.callers i <;> simp_all [Caller.owes]
    have hpending : m.pending = none := by
      have hmap := hfilled.pending.symm.trans hevent
      exact Option.map_eq_none_iff.1 hmap
    have hlast := (hm.drained hpending).2
    rw [hfilled.put] at hlast
    refine ⟨hlast, fun c hc => ?_⟩
    have hreceived : s.received.getLast? = some c.received := by
      rw [← hfilled.taken, List.getLast?_map, hlast, hc]
      rfl
    rcases hfilled.shown (by rw [hidle]; rfl) _ hreceived with ⟨before, hshown⟩
    rw [hshown]
    exact c.handleRenderMessage_describes before

/-- An event of one cell. -/
def letter (ch : UInt32) : Call where
  event := ⟨1, 1, 0, 0, 1, 1, 0, 0, 0, 0, 0, 1, 0, 0⟩
  cells := [⟨ch, 0, 0, 0, 1, 0, 0⟩]
  dirtyRects := []
  dest := 0x1000
  cellsLen := rfl
  dirtyCount := rfl
  fits := by simp

/-- Two threads store an event each before the first of their messages is processed. -/
def twoStored : List (Label Bool) :=
  [.createHandle, .call false (some (letter 65))] ++ List.replicate 5 (.caller false) ++
    [.call true (some (letter 66))] ++ List.replicate 5 (.caller true) ++ List.replicate 12 .ui

theorem twoStored_delivered :
    ∃ s, (machine Bool).run created twoStored = some s ∧ s.received.length = 1 ∧
      ∃ taken : List Call, taken.Sublist s.stored ∧ List.Forall₂ Whole taken s.received ∧
        taken.getLast? = s.stored.getLast? ∧ ∀ c ∈ s.stored.getLast?, Describes c s.last := by
  have hmeets : (machine Bool).Meets (fun _ _ => True) created twoStored := by decide +kernel
  have htest : ((machine Bool).run created twoStored).any (fun s =>
      decide (Quiet s ∧ s.woken = true ∧ s.received.length = 1)) = true := by decide +kernel
  rcases Lts.Machine.exists_reachable created twoStored rfl hmeets htest with
    ⟨s, hrun, hreach, hs⟩
  rcases of_decide_eq_true hs with ⟨hquiet, hwoken, hlength⟩
  rcases delivered_reachable hreach with ⟨taken, hsublist, hwhole, hlast⟩
  exact ⟨s, hrun, hlength, taken, hsublist, hwhole, hlast hquiet hwoken⟩

end RataShell.Control.RenderEvents
