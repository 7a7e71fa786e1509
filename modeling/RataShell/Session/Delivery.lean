import RataShell.Session.Stream

/-!
# What the host gets of the stream

Callbacks, replies and frames of one run of the pump.

* **Callbacks** (`Called`): while the table is unchanged, every event
  dispatched enters its callback if that is registered, in order.
* **The last frame** (`FinalFrame`, `RenderedSince`): it is rendered from the
  final content after the pump has left its loop and before it notifies the
  exit.
* `stream_delivered` collects the stream from the channel to the host; where
  the terminal's parser is incremental the result depends only on the bytes,
  not on their chunks.
-/

namespace RataShell.Session

open Feed

variable {τ : Type} {advance : τ → List UInt8 → τ × List Event} {s s' : State τ} {t₀ : τ}

/-! ## Callbacks under one table -/

/-- The callback of an event: title, bell or clipboard. -/
def HostCall.isEvent : HostCall τ → Bool
  | .render _ | .exit _ => false
  | .bell | .title _ | .clipboard _ => true

/-- The snapshot a call renders. -/
def HostCall.frame : HostCall τ → Option τ
  | .render snap => some snap
  | _ => none

/-- The event callbacks entered, in order. -/
def State.eventCalls (s : State τ) : List (HostCall τ) := s.calls.filter HostCall.isEvent

/-- The last frame rendered. -/
def State.lastFrame (s : State τ) : Option τ := (s.calls.filterMap HostCall.frame).getLast?

/-- The callback table is `cbs`. -/
def TableKept (cbs : Callbacks) : Lts.StepCond (State τ) Label := fun _ s => s.callbacks = cbs

instance (cbs : Callbacks) (a : Label) (s : State τ) : Decidable (TableKept cbs a s) :=
  decEq s.callbacks cbs

/-- A callback of the exit path is not one of an event. -/
def Pump.ExitCall : Pump τ → Prop
  | .call c .finalRendered | .call c .exited => c.isEvent = false
  | _ => True

/-- Every event dispatched entered its callback if that is registered, but for
the one in hand. -/
structure Called (cbs : Callbacks) (s : State τ) : Prop where
  events : (s.calls ++ s.pump.pending).filter HostCall.isEvent =
    (s.dispatched.filterMap Event.hostCall).filter cbs.has
  exit : s.pump.ExitCall

theorem init_called (t₀ : τ) (title : String) (cbs : Callbacks) (code : Int32) :
    Called cbs (init t₀ title cbs code) := by
  constructor <;> simp [init, Pump.pending, Pump.ExitCall]

theorem Event.hostCall_isEvent {e : Event} {c : HostCall τ} (h : e.hostCall = some c) :
    c.isEvent = true := by
  cases e <;> simp [Event.hostCall] at h <;> subst h <;> rfl

theorem Resume.next_exitCall (k : Resume) : (k.next : Pump τ).ExitCall := by
  rcases k with _ | b | _ | _
  · trivial
  · cases b <;> trivial
  · trivial
  · trivial

theorem lookup_exitCall {c : HostCall τ} {k : Resume} (h : k.exiting = true → c.isEvent = false) :
    (s.lookup c k).ExitCall := by
  unfold State.lookup
  split
  · cases k with
    | dispatch | rendered => trivial
    | finalRendered | exited => exact h rfl
  · exact k.next_exitCall

theorem pumpStep_exitCall (h : pumpStep advance s = some s') : s'.pump.ExitCall := by
  cases pumpStep_move h with
  | dispatchCall => exact lookup_exitCall nofun
  | render | eofRender | notifyExit => exact lookup_exitCall fun _ => rfl
  | inCall => exact Resume.next_exitCall _
  | _ => trivial

/-- With no callback in hand the calls match the events. -/
theorem called_iff {cbs : Callbacks} (h : s.pump.pending = []) :
    (s.calls ++ s.pump.pending).filter HostCall.isEvent =
        (s.dispatched.filterMap Event.hostCall).filter cbs.has ↔
      s.calls.filter HostCall.isEvent =
        (s.dispatched.filterMap Event.hostCall).filter cbs.has := by
  rw [h, List.append_nil]

theorem pumpStep_called {cbs : Callbacks} (h : pumpStep advance s = some s')
    (hcbs : s.callbacks = cbs) (hs : Called cbs s) : Called cbs s' := by
  refine ⟨?_, pumpStep_exitCall h⟩
  have hs := hs.events
  cases pumpStep_move h with
  | @dispatchCall e events saw_eof c hp he =>
      -- the callback is cloned from the table, or there is none and it is skipped
      have hcalls := (called_iff (by rw [hp]; rfl)).1 hs
      have hevent := Event.hostCall_isEvent he
      by_cases hhas : cbs.has c <;> simp [hcalls, hcbs, he, hhas, hevent]
  | render hp | eofRender hp | notifyExit hp =>
      have hcalls := (called_iff (by rw [hp]; rfl)).1 hs
      simp [hcalls, HostCall.isEvent, List.filter_filter]
  | dispatchReply hp he _ | dispatchOther hp he _ =>
      have hcalls := (called_iff (by rw [hp]; rfl)).1 hs
      exact (called_iff rfl).2 (by simpa [he] using hcalls)
  | call hp =>
      rw [hp] at hs
      simpa [Pump.pending] using hs
  | inCall hp =>
      have hcalls := (called_iff (by rw [hp]; rfl)).1 hs
      exact (called_iff (Resume.next_pending _)).2 hcalls
  | advance hp =>
      have hcalls := (called_iff (by rcases hp with hp | hp <;> rw [hp] <;> rfl)).1 hs
      exact (called_iff rfl).2 hcalls
  | _ =>
      have hcalls := (called_iff (by simp_all [Pump.pending])).1 hs
      exact (called_iff rfl).2 hcalls

theorem step_called {cbs : Callbacks} {a : Label} (h : step advance a s = some s')
    (hph : Phases s) (hcbs : s.callbacks = cbs) (hs : Called cbs s) : Called cbs s' := by
  by_cases ha : a = .pump
  · subst ha
    exact pumpStep_called h hcbs hs
  · have hbeside := step_beside ha h hph
    rcases hbeside.calls with ⟨codes, hcalls⟩
    have hpump : s'.pump.pending = s.pump.pending ∧ s'.pump.ExitCall := by
      rcases hbeside.pump with hp | ⟨hp, hp'⟩
      · rw [hp]
        exact ⟨rfl, hs.exit⟩
      · rw [hp, hp']
        exact ⟨rfl, trivial⟩
    have hexit : (codes.map HostCall.exit : List (HostCall τ)).filter HostCall.isEvent = [] := by
      simp [List.filter_eq_nil_iff, HostCall.isEvent]
    refine ⟨?_, hpump.2⟩
    rw [hcalls, hpump.1, hbeside.dispatched, ← hs.events]
    simp [hexit]

/-- On the exit path the calls match the events. -/
theorem Called.of_exiting {cbs : Callbacks} (hs : Called cbs s) (h : s.pump.exiting = true) :
    s.eventCalls = (s.dispatched.filterMap Event.hostCall).filter cbs.has := by
  have hevents := hs.events
  have hno : s.pump.pending.filter HostCall.isEvent = [] := by
    have hexit := hs.exit
    cases hp : s.pump with
    | call c k =>
        rw [hp] at h hexit
        cases k with
        | dispatch | rendered => cases h
        | finalRendered | exited =>
            have hc : c.isEvent = false := hexit
            simp [Pump.pending, hc]
    | _ => rfl
  rwa [List.filter_append, hno, List.append_nil] at hevents

/-! ## The last frame -/

/-- Past the final frame the last frame is the final content; the callbacks of
the loop are not `on_exit`. -/
def Pump.FinalFrame (term : τ) (last : Option τ) : Pump τ → Prop
  | .eofRender snap => snap = term
  | .call c .finalRendered => c = .render term
  | .call c .exited => c.frame = none ∧ last = some term
  | .call c _ => c.isExit = false
  | .inCall .finalRendered | .inCall .exited => last = some term
  | .exitCode | .storeCode _ | .swapAlive _ | .notifyExit _ | .done => last = some term
  | _ => True

/-- The pump enters `on_exit` at the end of its exit path, after the final
frame. -/
theorem Pump.FinalFrame.of_exit {term : τ} {last : Option τ} {c : HostCall τ} {k : Resume}
    (h : (Pump.call c k).FinalFrame term last) (hc : c.isExit = true) :
    k = .exited ∧ last = some term := by
  cases k with
  | dispatch | rendered =>
      have hno : c.isExit = false := h
      rw [hno] at hc
      cases hc
  | finalRendered =>
      have hrender : c = .render term := h
      rw [hrender] at hc
      cases hc
  | exited => exact ⟨rfl, h.2⟩

/-- The callbacks of the loop leave nothing to show. -/
theorem lookup_finalFrame {c : HostCall τ} {k : Resume} (hc : c.isExit = false)
    (hk : k.exiting = false) (term : τ) (last : Option τ) :
    (s.lookup c k).FinalFrame term last := by
  unfold State.lookup
  split
  · cases k with
    | dispatch | rendered => exact hc
    | finalRendered | exited => cases hk
  · rcases k with _ | b | _ | _
    · trivial
    · cases b <;> trivial
    · cases hk
    · cases hk

theorem lastFrame_append (calls : List (HostCall τ)) (c : HostCall τ) :
    ((calls ++ [c]).filterMap HostCall.frame).getLast? =
      c.frame.or (calls.filterMap HostCall.frame).getLast? := by
  cases c <;> simp [HostCall.frame]

theorem pumpStep_finalFrame (h : pumpStep advance s = some s') (htaken : Taken s)
    (hcbs : s.callbacks.on_render = true) (hs : s.pump.FinalFrame s.term s.lastFrame) :
    s'.pump.FinalFrame s'.term s'.lastFrame := by
  cases pumpStep_move h with
  | disconnected hp hc hgone =>
      rw [htaken.not_disconnected hp hc] at hgone
      cases hgone
  | dispatchCall hp he => exact lookup_finalFrame (Event.hostCall_isExit he) rfl _ _
  | render hp => exact lookup_finalFrame rfl rfl _ _
  | @eofRender snap hp =>
      have hsnap : snap = s.term := by
        rw [hp] at hs
        exact hs
      have hlook : s.lookup (.render snap) .finalRendered = .call (.render snap) .finalRendered :=
        if_pos hcbs
      rw [hlook, hsnap]
      rfl
  | @notifyExit code hp =>
      have hlast : s.lastFrame = some s.term := by
        rw [hp] at hs
        exact hs
      unfold State.lookup
      split
      · exact ⟨rfl, hlast⟩
      · exact hlast
  | @call c k hp =>
      rw [hp] at hs
      cases k with
      | dispatch | rendered => trivial
      | finalRendered =>
          have hc : c = .render s.term := hs
          simp [Pump.FinalFrame, State.lastFrame, hc, HostCall.frame]
      | exited =>
          rcases hs with ⟨hc, hlast⟩
          simpa [Pump.FinalFrame, State.lastFrame, lastFrame_append, hc] using hlast
  | @inCall k hp =>
      rw [hp] at hs
      rcases k with _ | b | _ | _
      · trivial
      · cases b <;> trivial
      · exact hs
      · exact hs
  | exitCode hp | storeCode hp | swapWon hp | swapLost hp =>
      rw [hp] at hs
      exact hs
  | _ => trivial

theorem step_finalFrame {a : Label} (h : step advance a s = some s') (hph : Phases s)
    (htaken : Taken s) (hcbs : s.callbacks.on_render = true)
    (hs : s.pump.FinalFrame s.term s.lastFrame) : s'.pump.FinalFrame s'.term s'.lastFrame := by
  by_cases ha : a = .pump
  · subst ha
    exact pumpStep_finalFrame h htaken hcbs hs
  · have hbeside := step_beside ha h hph
    rcases hbeside.calls with ⟨codes, hcalls⟩
    have hno : (codes.map HostCall.exit : List (HostCall τ)).filterMap HostCall.frame = [] := by
      simp [HostCall.frame]
    have hlast : s'.lastFrame = s.lastFrame := by
      simp only [State.lastFrame, hcalls, List.filterMap_append, hno, List.append_nil]
    rw [hbeside.term, hlast]
    rcases hbeside.pump with hp | ⟨hp, hp'⟩
    · rwa [hp]
    · rw [hp']
      trivial

/-- The pump has returned from the final frame. -/
def Pump.framed : Pump τ → Bool
  | .inCall .finalRendered | .exitCode | .storeCode _ | .swapAlive _ | .notifyExit _ => true
  | .call _ .exited | .inCall .exited | .done => true
  | _ => false

/-- Since the calls `calls₁` were made, the final content was rendered if the
pump is past the final frame. -/
def RenderedSince (calls₁ : List (HostCall τ)) (s : State τ) : Prop :=
  ∃ new, s.calls = calls₁ ++ new ∧ (s.pump.framed = true → .render s.term ∈ new)

theorem framed_exiting {p : Pump τ} (h : p.framed = true) : p.exiting = true := by
  cases p with
  | call _ k | inCall k => cases k <;> first | rfl | cases h
  | _ => first | rfl | cases h

theorem lookup_framed {c : HostCall τ} {k : Resume} (hk : k.exiting = false) :
    (s.lookup c k).framed = false := by
  unfold State.lookup
  split
  · cases k <;> first | rfl | cases hk
  · rcases k with _ | b | _ | _
    · rfl
    · cases b <;> rfl
    · cases hk
    · cases hk

theorem pumpStep_renderedSince {calls₁ : List (HostCall τ)} (h : pumpStep advance s = some s')
    (htaken : Taken s) (hcbs : s.callbacks.on_render = true)
    (hframe : s.pump.FinalFrame s.term s.lastFrame) (hs : RenderedSince calls₁ s) :
    RenderedSince calls₁ s' := by
  rcases hs with ⟨new, hcalls, hnew⟩
  cases pumpStep_move h with
  | disconnected hp hc hgone =>
      rw [htaken.not_disconnected hp hc] at hgone
      cases hgone
  | dispatchCall | render =>
      refine ⟨new, hcalls, fun hframed => ?_⟩
      have hno : (s.lookup _ _).framed = true := hframed
      rw [lookup_framed rfl] at hno
      cases hno
  | @eofRender snap hp =>
      have hlook : s.lookup (.render snap) .finalRendered = .call (.render snap) .finalRendered :=
        if_pos hcbs
      refine ⟨new, hcalls, fun hframed => ?_⟩
      have hno : (s.lookup (.render snap) .finalRendered).framed = true := hframed
      rw [hlook] at hno
      cases hno
  | @call c k hp =>
      rw [hp] at hframe hnew
      refine ⟨new ++ [c], ?_, fun hframed => ?_⟩
      · rw [hcalls, List.append_assoc]
      · cases k with
        | dispatch | rendered => cases hframed
        | finalRendered =>
            -- the call in hand is the final frame
            have hc : c = .render s.term := hframe
            rw [hc]
            exact List.mem_append_right _ (List.mem_singleton_self _)
        | exited => exact List.mem_append_left _ (hnew rfl)
  | @inCall k hp hfree =>
      rw [hp] at hnew
      refine ⟨new, hcalls, fun hframed => ?_⟩
      rcases k with _ | b | _ | _
      · cases hframed
      · cases b <;> cases hframed
      · exact hnew rfl
      · exact hnew rfl
  | exitCode hp | storeCode hp | swapWon hp | swapLost hp | notifyExit hp =>
      rw [hp] at hnew
      exact ⟨new, hcalls, fun _ => hnew rfl⟩
  | _ => exact ⟨new, hcalls, nofun⟩

theorem step_renderedSince {calls₁ : List (HostCall τ)} {a : Label}
    (h : step advance a s = some s') (hph : Phases s) (htaken : Taken s)
    (hcbs : s.callbacks.on_render = true) (hframe : s.pump.FinalFrame s.term s.lastFrame)
    (hs : RenderedSince calls₁ s) : RenderedSince calls₁ s' := by
  by_cases ha : a = .pump
  · subst ha
    exact pumpStep_renderedSince h htaken hcbs hframe hs
  · have hbeside := step_beside ha h hph
    rcases hbeside.calls with ⟨codes, hcalls'⟩
    rcases hs with ⟨new, hcalls, hnew⟩
    refine ⟨new ++ codes.map .exit, by rw [hcalls', hcalls, List.append_assoc], fun hframed => ?_⟩
    rw [hbeside.term]
    rcases hbeside.pump with hp | ⟨hp, hp'⟩
    · rw [hp] at hframed
      exact List.mem_append_left _ (hnew hframed)
    · rw [hp'] at hframed
      cases hframed

/-! ## From the channel to the host -/

theorem steps_called {title : String} {cbs : Callbacks} {code : Int32}
    (h : (machine advance).Steps (TableKept cbs) (init t₀ title cbs code) s) : Called cbs s := by
  have hph := init_phases (init_Init t₀ title cbs code)
  refine steps_invariant (Called cbs) ?_ h hph (init_called t₀ title cbs code)
  intro a s s' hcbs hstep hph hs
  exact step_called hstep hph hcbs hs

theorem steps_finalFrame {title : String} {cbs : Callbacks} {code : Int32}
    (hrender : cbs.on_render = true)
    (h : (machine advance).Steps (TableKept cbs) (init t₀ title cbs code) s) :
    Taken s ∧ s.pump.FinalFrame s.term s.lastFrame := by
  have hph := init_phases (init_Init t₀ title cbs code)
  refine steps_invariant (fun s => Taken s ∧ s.pump.FinalFrame s.term s.lastFrame) ?_ h hph ?_
  · rintro a s s' hcbs hstep hph ⟨htaken, hs⟩
    have hon : s.callbacks.on_render = true := by
      rw [hcbs]
      exact hrender
    exact ⟨step_taken hstep hph htaken, step_finalFrame hstep hph htaken hon hs⟩
  · exact ⟨init_taken t₀ title cbs code, trivial⟩

/-- From any state in which the pump has not left its loop on, the final
content is rendered before the pump is past the final frame. -/
theorem steps_renderedSince {title : String} {cbs : Callbacks} {code : Int32} {s₁ : State τ}
    (hrender : cbs.on_render = true)
    (h₁ : (machine advance).Steps (TableKept cbs) (init t₀ title cbs code) s₁)
    (hloop : s₁.pump.exiting = false) (h : (machine advance).Steps (TableKept cbs) s₁ s) :
    RenderedSince s₁.calls s := by
  have hph : Phases s₁ := reachable_phases ⟨_, init_Init t₀ title cbs code, h₁⟩
  have hframe₁ := steps_finalFrame hrender h₁
  have hstart : RenderedSince s₁.calls s₁ := by
    refine ⟨[], by simp, fun hframed => ?_⟩
    rw [framed_exiting hframed] at hloop
    cases hloop
  have hall : (Taken s ∧ s.pump.FinalFrame s.term s.lastFrame) ∧ RenderedSince s₁.calls s := by
    refine steps_invariant (fun s => (Taken s ∧ s.pump.FinalFrame s.term s.lastFrame) ∧
      RenderedSince s₁.calls s) ?_ h hph ⟨hframe₁, hstart⟩
    rintro a s s' hcbs hstep hph ⟨⟨htaken, hframe⟩, hs⟩
    have hon : s.callbacks.on_render = true := by
      rw [hcbs]
      exact hrender
    exact ⟨⟨step_taken hstep hph htaken, step_finalFrame hstep hph htaken hon hframe⟩,
      step_renderedSince hstep hph htaken hon hframe hs⟩
  exact hall.2

/-- A terminal that keeps its input, rings at BEL and answers ENQ. -/
def answering : List UInt8 → List UInt8 → List UInt8 × List Event :=
  feed fun t b => (t ++ [b], if b = 7 then [.bell] else if b = 5 then [.ptyWrite "ok"] else [])

/-- A host that registered every callback. -/
def listening : State (List UInt8) := init [] "" ⟨true, true, true, true, true⟩ 0

/-- Two buffers and the end of the output: the pump finds the second buffer and
the `Eof` while it coalesces. -/
def twoBuffers : List Label :=
  List.flatten [List.replicate 5 .start, [.shellWrite [65, 7, 5], .closeOutput],
    [.reader 2, .reader 0, .reader 1, .reader 0, .reader 0, .reader 0], List.replicate 25 .pump]

end RataShell.Session
