import Mathlib.Data.Prod.Lex
import RataShell.Control.Screen

/-!
# The screen catches up

From any state on, the threads between the shell and the screen come to rest if nothing
more is written, whatever the order of their steps is.

* `Internal`: their steps.
* `step_measure`: each takes a finite amount of work away.
* `stuck_at_rest`: they do not stop before there is none left.
* `screen_catches_up`: and then the control shows all that was written.
-/

namespace RataShell.Screen

open Control.RenderEvents (Call Caller Handler)
open Session (Callbacks HostCall Pump Reader Resume Start)
open Term (Alacritty HostBackend RenderSnapshot TermHost)

variable {T R : Type}

/-- A step of `start`, the reader, the pump, `RataRenderProc` or the window thread. -/
inductive Internal : Label → Prop
  | start : Internal (.session .start)
  | reader (n : Nat) : Internal (.session (.reader n))
  | pump : Internal (.session .pump)
  | render (c : Call) : Internal (.render c)
  | caller : Internal (.window (.caller ()))
  | ui : Internal (.window .ui)

/-! ## Work -/

def startWork : Start → Nat
  | .storeAlive => 5
  | .spawnPump => 4
  | .storePty => 3
  | .spawnWatcher => 2
  | .storeHandles => 1
  | .returned => 0

def readerWork : Reader → Nat
  | .readFile => 3
  | .send (.bytes _) => 5
  | .send .eof => 2
  | .done => 0

/-- What there is before the pump. -/
def pipeWork (s : Session.State (TermHost T)) : Nat :=
  startWork s.start + 4 * s.unread.length + readerWork s.reader + s.chan.length

/-- Where the pump is on its way to the next message, from above. -/
def callStage : Resume → Nat
  | .dispatch _ _ => 17
  | .rendered _ => 14
  | .finalRendered => 10
  | .exited => 4

def inCallStage : Resume → Nat
  | .dispatch _ _ => 17
  | .rendered _ => 13
  | .finalRendered => 9
  | .exited => 3

def stage : Pump (TermHost T) → Nat
  | .advance _ | .advanceMore _ => 20
  | .tryRecv => 19
  | .drain _ => 18
  | .dispatch _ _ => 17
  | .snapshot _ => 16
  | .render _ _ => 15
  | .eofSnapshot => 12
  | .eofRender _ => 11
  | .exitCode => 8
  | .storeCode _ => 7
  | .swapAlive _ => 6
  | .notifyExit _ => 5
  | .recv => 2
  | .unspawned | .done => 0
  | .call _ k => callStage k
  | .inCall k => inCallStage k

/-- The events that the pump has yet to dispatch, with the callback it is at. -/
def eventWork : Pump (TermHost T) → Nat
  | .dispatch events _ => 3 * events.length
  | .call _ k => 3 * k.toDispatch.length + 2
  | .inCall k => 3 * k.toDispatch.length + 1
  | _ => 0

def callerWork : Caller → Nat
  | .idle => 0
  | .storing _ => 15
  | .entered _ => 14
  | .bufSet _ => 13
  | .eventSet => 12
  | .posting => 11

def handlerWork : Handler → Nat
  | .idle => 0
  | .started => 9
  | .entered => 8
  | .cellsTaken _ => 7
  | .eventTaken _ => 6
  | .eventCleared _ => 5
  | .bufCleared _ => 4
  | .consumed _ => 3
  | .noEvent => 1

/-- What there is for the window. -/
def windowWork (w : Control.RenderEvents.State Unit) : Nat :=
  callerWork (w.callers ()) + 10 * w.messages + handlerWork w.handler

/-- Messages before the pump, the way of the pump to the next one, its events, and the
window. -/
def work (s : State T) : Nat × Nat × Nat × Nat :=
  (pipeWork s.session, stage s.session.pump, eventWork s.session.pump, windowWork s.window)

/-- Less work, in this order. -/
abbrev Less : Nat × Nat × Nat × Nat → Nat × Nat × Nat × Nat → Prop :=
  Prod.Lex (· < ·) (Prod.Lex (· < ·) (Prod.Lex (· < ·) (· < ·)))

theorem less_wf : WellFounded Less :=
  Nat.lt_wfRel.wf.prod_lex (Nat.lt_wfRel.wf.prod_lex (Nat.lt_wfRel.wf.prod_lex Nat.lt_wfRel.wf))

theorem less_iff {a b c d a' b' c' d' : Nat} :
    Less (a', b', c', d') (a, b, c, d) ↔
      a' < a ∨ a' = a ∧ (b' < b ∨ b' = b ∧ (c' < c ∨ c' = c ∧ d' < d)) := by
  simp only [Prod.lex_def]

section Session

variable {adv : TermHost T → List UInt8 → TermHost T × List Session.Event}
  {s s' : Session.State (TermHost T)}

theorem startStep_work (h : Session.startStep s = some s') : pipeWork s' < pipeWork s := by
  cases Session.startStep_move h <;> simp_all [pipeWork, startWork]

theorem readerStep_work {n : Nat} (h : Session.readerStep n s = some s') :
    pipeWork s' < pipeWork s := by
  cases Session.readerStep_move h with
  | readBytes hr hpos hlen =>
      simp only [pipeWork, hr, readerWork, List.length_drop]
      omega
  | @gone ev hr hgone =>
      cases ev <;> simp [pipeWork, hr, readerWork]
  | readEof hr | sendBytes hr | sendEof hr =>
      simp only [pipeWork, hr, readerWork, List.length_append, List.length_singleton]
      omega

theorem next_stage (k : Resume) :
    stage (k.next : Pump (TermHost T)) ≤ inCallStage k ∧
      eventWork (k.next : Pump (TermHost T)) ≤ 3 * k.toDispatch.length := by
  fun_cases Resume.next k <;> simp [stage, inCallStage, eventWork, Resume.toDispatch]

theorem inCallStage_le (k : Resume) :
    inCallStage k < callStage k ∨ inCallStage k = callStage k := by
  cases k <;> simp [inCallStage, callStage]

theorem lookup_stage (c : HostCall (TermHost T)) (k : Resume) :
    stage (s.lookup c k) ≤ callStage k ∧
      eventWork (s.lookup c k) ≤ 3 * k.toDispatch.length + 2 := by
  have hnext := next_stage (T := T) k
  have hle := inCallStage_le k
  unfold Session.State.lookup
  split
  · exact ⟨Nat.le_refl _, Nat.le_refl _⟩
  · omega

/-- The pump takes a message or goes on. -/
theorem pumpStep_work (h : Session.pumpStep adv s = some s') :
    pipeWork s' < pipeWork s ∨ pipeWork s' = pipeWork s ∧
      (stage s'.pump < stage s.pump ∨ stage s'.pump = stage s.pump ∧
        eventWork s'.pump < eventWork s.pump) := by
  cases Session.pumpStep_move h with
  | recvBytes hp hc | recvEof hp hc | tryBytes hp hc | tryEof hp hc =>
      refine .inl ?_
      simp [pipeWork, hc]
  | advance hp =>
      refine .inr ⟨rfl, .inl ?_⟩
      rcases hp with hp | hp <;> simp [hp, stage]
  | @dispatchCall e events saw_eof c hp he =>
      refine .inr ⟨rfl, ?_⟩
      have hstage := lookup_stage (s := s) c (.dispatch events saw_eof)
      rw [hp]
      simp only [callStage, Resume.toDispatch, stage, eventWork, List.length_cons]
        at hstage ⊢
      omega
  | @dispatchReply e events saw_eof buf hp | @dispatchOther e events saw_eof hp =>
      refine .inr ⟨rfl, .inr ?_⟩
      rw [hp]
      simp [stage, eventWork]
  | @render snap saw_eof hp =>
      refine .inr ⟨rfl, .inl ?_⟩
      have hstage := (lookup_stage (s := s) (.render snap) (.rendered saw_eof)).1
      rw [hp]
      exact Nat.lt_succ_of_le hstage
  | @eofRender snap hp =>
      refine .inr ⟨rfl, .inl ?_⟩
      have hstage := (lookup_stage (s := s) (.render snap) .finalRendered).1
      rw [hp]
      exact Nat.lt_succ_of_le hstage
  | @notifyExit code hp =>
      refine .inr ⟨rfl, .inl ?_⟩
      have hstage := (lookup_stage (s := s) (.exit code) .exited).1
      rw [hp]
      exact Nat.lt_succ_of_le hstage
  | @call c k hp =>
      refine .inr ⟨rfl, ?_⟩
      rw [hp]
      exact (inCallStage_le k).imp_right fun hstage => ⟨hstage, Nat.lt_succ_self _⟩
  | @inCall k hp hfree =>
      refine .inr ⟨rfl, ?_⟩
      have hnext := next_stage (T := T) k
      rw [hp]
      change stage (k.next : Pump (TermHost T)) < inCallStage k ∨
        stage (k.next : Pump (TermHost T)) = inCallStage k ∧
          eventWork (k.next : Pump (TermHost T)) < 3 * k.toDispatch.length + 1
      omega
  | _ =>
      refine .inr ⟨rfl, .inl ?_⟩
      simp_all [stage]

/-- Where the reader cannot go on. -/
theorem readerStep_none (h : Session.readerStep 1 s = none) :
    (s.reader = .readFile ∧ s.unread = []) ∨
      (∃ ev, s.reader = .send ev ∧ Session.channelCap ≤ s.chan.length) ∨ s.reader = .done := by
  unfold Session.readerStep at h
  cases hr : s.reader with
  | readFile =>
      refine .inl ⟨rfl, ?_⟩
      simpa [hr, Nat.one_le_iff_ne_zero] using h
  | send ev =>
      refine .inr (.inl ⟨ev, rfl, ?_⟩)
      by_contra hroom
      simp only [hr, if_pos (Nat.lt_of_not_le hroom)] at h
      split at h <;> cases h
  | done => exact .inr (.inr rfl)

/-- Where the pump cannot go on. -/
theorem pumpStep_none (hdropper : s.dropper = none) (h : Session.pumpStep adv s = none) :
    s.pump = .unspawned ∨ (s.pump = .recv ∧ s.chan = []) ∨ s.pump = .done := by
  unfold Session.pumpStep at h
  cases hp : s.pump with
  | unspawned => exact .inl rfl
  | recv =>
      cases hc : s.chan with
      | nil => exact .inr (.inl ⟨rfl, rfl⟩)
      | cons ev chan => cases ev <;> simp [hp, hc] at h
  | done => exact .inr (.inr rfl)
  | tryRecv =>
      cases hc : s.chan with
      | nil => simp [hp, hc] at h
      | cons ev chan => cases ev <;> simp [hp, hc] at h
  | dispatch events saw_eof => cases events <;> simp [hp] at h
  | inCall k => simp [hp, hdropper] at h
  | _ => simp [hp] at h

end Session

/-! ## The window -/

section Window

variable {w w' : Control.RenderEvents.State Unit}

theorem callerStep_work (h : Control.RenderEvents.callerStep () w = some w') :
    windowWork w' < windowWork w ∧ w'.handle = w.handle ∧
      (w.handle = true → w.woken = true → w'.woken = true) := by
  unfold Control.RenderEvents.callerStep at h
  split at h
  all_goals
    rename_i hc
    try split at h
  all_goals
    cases h
    try simp_all [windowWork, callerWork, Control.RenderEvents.State.at']
    try omega

theorem uiStep_work (h : Control.RenderEvents.uiStep w = some w') :
    windowWork w' < windowWork w ∧ w'.handle = w.handle ∧ w'.woken = w.woken := by
  unfold Control.RenderEvents.uiStep at h
  split at h
  all_goals
    rename_i hh
    try split at h
  all_goals
    cases h
    try refine ⟨?_, rfl, rfl⟩
    try simp only [windowWork, hh, handlerWork]
    try omega

/-- The window thread and `RataRenderProc` do not wait for each other. -/
theorem window_quiet (hs : Control.RenderEvents.Sound w)
    (hcaller : Control.RenderEvents.callerStep () w = none)
    (hui : Control.RenderEvents.uiStep w = none) :
    Control.RenderEvents.Quiet w ∧ w.callers () = .idle := by
  have hguarded := hs.guarded
  have hknows := hguarded.handler_knows
  have hcallers : w.callers () = .idle ∨ (∃ c, w.callers () = .storing c) ∧ w.lock ≠ none := by
    cases hc : w.callers () <;> simp [Control.RenderEvents.callerStep, hc] at hcaller ⊢
    · exact hcaller
    · split at hcaller <;> cases hcaller
  have hhandler : w.handler = .idle ∧ w.messages = 0 ∨ w.handler = .started ∧ w.lock ≠ none := by
    cases hh : w.handler <;> simp [Control.RenderEvents.uiStep, hh] at hui ⊢
    · exact hui
    · exact hui
    · split at hui <;> cases hui
    · -- the event that the handler has seen is still there
      rw [hh] at hknows
      have hevent : w.pendingEvent = some _ := hknows
      rw [hevent] at hui
      cases hui
  have hlock : w.lock = none := by
    cases hl : w.lock with
    | none => rfl
    | some i =>
        cases i with
        | caller i =>
            have hin := (hguarded.callers_lock ()).2 hl
            rcases hcallers with hc | ⟨⟨c, hc⟩, -⟩ <;> rw [hc] at hin <;> cases hin
        | ui =>
            have hin := hguarded.handler_lock.2 hl
            rcases hhandler with ⟨hh, -⟩ | ⟨hh, -⟩ <;> rw [hh] at hin <;> cases hin
  have hidle := hcallers.resolve_right fun h => h.2 hlock
  rcases hhandler.resolve_right fun h => h.2 hlock with ⟨hh, hmessages⟩
  refine ⟨⟨hmessages, hh, fun i => ?_⟩, hidle⟩
  rw [show w.callers i = .idle from hidle]
  exact ⟨by simp, by simp⟩

end Window

/-! ## The way to rest -/

section Runs

variable {A : Alacritty T R} {events : TermHost T → List UInt8 → List Session.Event}
  {t₀ : TermHost T} {cbs : Callbacks} {s s' : State T}

/-- What the steps to rest leave as it is. -/
structure Steady (s s' : State T) : Prop where
  callbacks : s'.session.callbacks = s.session.callbacks
  drop : s'.session.drop = s.session.drop
  wrote : s'.wrote = s.wrote
  handle : s'.window.handle = s.window.handle
  woken : s.window.handle = true → s.window.woken = true → s'.window.woken = true

theorem Steady.refl (s : State T) : Steady s s := ⟨rfl, rfl, rfl, rfl, fun _ h => h⟩

theorem Steady.trans {s'' : State T} (h : Steady s s') (h' : Steady s' s'') : Steady s s'' where
  callbacks := h'.callbacks.trans h.callbacks
  drop := h'.drop.trans h.drop
  wrote := h'.wrote.trans h.wrote
  handle := h'.handle.trans h.handle
  woken hhandle hwoken := h'.woken (h.handle.trans hhandle) (h.woken hhandle hwoken)

theorem pumpStep_session (h : pumpStep A events s = some s') :
    Session.pumpStep (advance A events) s.session = some s'.session ∧
      s'.window = s.window ∧ s'.wrote = s.wrote := by
  unfold pumpStep at h
  split at h
  · cases h
  split at h
  · cases h
  rcases Option.map_eq_some_iff.1 h with ⟨session, hstep, rfl⟩
  split <;> exact ⟨hstep, rfl, rfl⟩

theorem renderStep_session {c : Call} (h : renderStep A events c s = some s') :
    Session.pumpStep (advance A events) s.session = some s'.session ∧
      Control.RenderEvents.call () (some c) s.window = some s'.window ∧ s'.wrote = s.wrote := by
  unfold renderStep at h
  split at h
  · rcases Option.bind_eq_some_iff.1 h with ⟨session, hstep, hcall⟩
    rcases Option.map_eq_some_iff.1 hcall with ⟨window, hwindow, rfl⟩
    exact ⟨hstep, hwindow, rfl⟩
  · cases h

theorem call_handle {c : Option Call} {w w' : Control.RenderEvents.State Unit}
    (h : Control.RenderEvents.call () c w = some w') :
    w'.handle = w.handle ∧ w'.woken = w.woken := by
  unfold Control.RenderEvents.call at h
  split at h
  · cases h
    exact ⟨rfl, rfl⟩
  · cases h

/-- A step of the pump takes work away whatever it leaves to the window. -/
theorem less_of_pumpStep (h : Session.pumpStep (advance A events) s.session = some s'.session) :
    Less (work s') (work s) := by
  have hwork := pumpStep_work h
  rw [work, work, less_iff]
  omega

theorem internal_step {a : Label} (ha : Internal a) (h : step A events a s = some s') :
    Less (work s') (work s) ∧ Steady s s' := by
  cases ha with
  | start =>
      rcases Option.map_eq_some_iff.1 h with ⟨session, hstep, rfl⟩
      refine ⟨Prod.Lex.left _ _ (startStep_work hstep), ?_⟩
      rcases Session.startStep_frame hstep with ⟨_, _, _, _, _, _, rfl⟩
      exact ⟨rfl, rfl, List.append_nil _, rfl, fun _ h => h⟩
  | reader n =>
      rcases Option.map_eq_some_iff.1 h with ⟨session, hstep, rfl⟩
      refine ⟨Prod.Lex.left _ _ (readerStep_work hstep), ?_⟩
      rcases Session.readerStep_frame hstep with ⟨_, _, _, _, rfl⟩
      exact ⟨rfl, rfl, List.append_nil _, rfl, fun _ h => h⟩
  | pump =>
      rcases pumpStep_session h with ⟨hstep, hwindow, hwrote⟩
      refine ⟨less_of_pumpStep hstep, ?_⟩
      rcases Session.pumpStep_frame hstep with
        ⟨_, _, _, _, _, _, _, _, _, _, _, _, _, _, hsession⟩
      exact ⟨by rw [hsession], by rw [hsession], hwrote, by rw [hwindow],
        fun _ hwoken => by rw [hwindow, hwoken]⟩
  | render c =>
      rcases renderStep_session h with ⟨hstep, hwindow, hwrote⟩
      rcases call_handle hwindow with ⟨hhandle, hwoken⟩
      refine ⟨less_of_pumpStep hstep, ?_⟩
      rcases Session.pumpStep_frame hstep with
        ⟨_, _, _, _, _, _, _, _, _, _, _, _, _, _, hsession⟩
      exact ⟨by rw [hsession], by rw [hsession], hwrote, hhandle, fun _ h => hwoken.trans h⟩
  | caller =>
      rcases Option.map_eq_some_iff.1 h with ⟨w, hstep, rfl⟩
      rcases callerStep_work hstep with ⟨hwork, hhandle, hwoken⟩
      exact ⟨.right _ (.right _ (.right _ hwork)), rfl, rfl, rfl, hhandle, hwoken⟩
  | ui =>
      rcases Option.map_eq_some_iff.1 h with ⟨w, hstep, rfl⟩
      rcases uiStep_work hstep with ⟨hwork, hhandle, hwoken⟩
      exact ⟨.right _ (.right _ (.right _ hwork)), rfl, rfl, rfl, hhandle,
        fun _ h => hwoken.trans h⟩

/-- None of these threads stops while there is work. -/
theorem stuck_at_rest (hs : Inv A events t₀ s) (hd : s.session.drop = .notStarted)
    (hstuck : ∀ a, Internal a → step A events a s = none) : s.AtRest := by
  have hsession := hs.session
  have hdropper : s.session.dropper = none := hsession.phases.dropper.2 hd
  rcases window_quiet hs.window (Option.map_eq_none_iff.1 (hstuck _ .caller))
    (Option.map_eq_none_iff.1 (hstuck _ .ui)) with ⟨hquiet, hidle⟩
  have hstart : s.session.start = .returned := by
    have hnone := Option.map_eq_none_iff.1 (hstuck _ .start)
    cases hst : s.session.start <;> simp [Session.step, Session.startStep, hst] at hnone ⊢
  have hpump : s.session.pump = .recv ∧ s.session.chan = [] ∨ s.session.pump = .done := by
    have hrender : ¬ (atRender s.session.pump).isSome := by
      intro hsome
      rcases Option.isSome_iff_exists.1 hsome with ⟨t, ht⟩
      rcases atRender_eq_some ht with ⟨k, hp⟩
      rcases hs.snap t (by rw [hp]; rfl) with ⟨b, hsnap⟩
      have hc := renderCall_of A t b
      rw [← hsnap] at hc
      have hnone := hstuck _ (.render (renderCall A t b))
      simp [step, renderStep, atRender, hc, Session.step, Session.pumpStep, hp,
        Control.RenderEvents.call, hidle] at hnone
    have hnone := hstuck _ .pump
    simp only [step, if_pos, pumpStep, if_neg hrender, hidle, ne_eq, not_true_eq_false,
      and_false, if_false, Option.map_eq_none_iff] at hnone
    rcases pumpStep_none hdropper hnone with hp | hrest
    · have hunspawned := hsession.phases.pump.1 hp
      simp [hstart] at hunspawned
    · exact hrest
  have hreader : s.session.unread = [] ∧ s.session.reader.inHand = [] := by
    rcases readerStep_none (Option.map_eq_none_iff.1 (hstuck _ (.reader 1))) with
      ⟨hr, hunread⟩ | ⟨ev, hr, hfull⟩ | hr
    · rw [hr]
      exact ⟨hunread, rfl⟩
    · -- the channel has room, and the pump ends only after the reader
      rcases hpump with ⟨-, hchan⟩ | hp
      · rw [hchan] at hfull
        cases hfull
      · have hreceived := hsession.stream.taken.eof_received.2 (by rw [hp]; rfl)
        have hsent : .eof ∈ s.session.sent := by
          rw [hsession.stream.taken.sent]
          exact List.mem_append_left _ hreceived
        rw [hsession.flow.eof hsent] at hr
        cases hr
    · have hended := hsession.flow.ended
      rw [hr] at hended ⊢
      exact ⟨(hended rfl).1, rfl⟩
  exact ⟨⟨hreader.1, hreader.2, hpump⟩, hquiet, hidle⟩

/-- These steps keep the session, and with it the invariant. -/
theorem internal_inv (hrender : cbs.on_render = true) (hcbs : s.session.callbacks = cbs)
    (hd : s.session.drop = .notStarted) {a : Label} {s₁ : State T} (hsteady : Steady s s₁)
    (hs₁ : Inv A events t₀ s₁) (ha : Internal a) (h : step A events a s₁ = some s') :
    Inv A events t₀ s' ∧ Steady s s' := by
  have hkept : Kept cbs a s₁ := ⟨hsteady.callbacks.trans hcbs, hsteady.drop.trans hd⟩
  exact ⟨step_inv h hkept hrender hs₁, hsteady.trans (internal_step ha h).2⟩

end Runs

end RataShell.Screen
