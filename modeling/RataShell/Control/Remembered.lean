import RataShell.Control.Geometry

/-!
# The remembered scroll position

The scroll bar, its drag and the way back to the live edge go by `FScrollOffset` and
`FScrollMax`, which `UpdateScrollInfo` fetches: behind a scroll of the control, and with
every frame that is drawn. A search and a resize may move the view and give no frame, and
`Start` leaves the position of the session before.

* `Settled`: the position is that of the terminal where no frame waits.
* `settled_rule`: what gives a frame, or fetches the position, keeps that.
* `settled_iff`: when it holds all along a run.
-/

namespace RataShell.Input.Remembered

open Control
open Geometry (machine)
open Term (Alacritty Op Plain Session plain)

variable {T R : Type} {A : Alacritty T R}

/-! ## The position -/

section Position

variable (A)

/-- `rata_session_get_scroll_info`. -/
def scrollInfo (s : Session T) : UInt32 × UInt32 :=
  (UInt32.ofNat (s.host.displayOffset A), UInt32.ofNat (s.host.historySize A))

/-- The remembered position is that of the terminal. -/
def Remembers (c : Control T) : Prop :=
  ∀ s ∈ c.session, (c.scrollOffset, c.scrollMax) = scrollInfo A s

/-- It is, where no frame waits to be drawn. -/
def Settled (c : Control T) : Prop := c.pendingEvent = none → Remembers A c

/-- `on_render` is registered. -/
def Rendering (c : Control T) : Prop := ∀ s ∈ c.session, s.onRender = true

/-- The operation of a message that gives no frame. -/
def unrendered (a : Label) (c : Control T) : Option Op :=
  match a with
  | .wmSize width height =>
      let c := { c with clientWidth := width, clientHeight := height }
      some (.resize (word c.calcCols) (word c.calcRows))
  | .fontChanged cellW cellH =>
      let c := { c with cellW := cellW, cellH := cellH }
      some (.resize (word c.calcCols) (word c.calcRows))
  | _ =>
      match c.searches A a with
      | some (pattern, forward) => if pattern = "" then none else some (.searchNext pattern forward)
      | none => none

/-- A new session is started. -/
def starts (a : Label) (c : Control T) : Bool :=
  match a with
  | .start _ => !c.active
  | _ => false

/-- Where no frame waits, no search or resize moves the view or the end of the history, and a
new session finds 0 remembered. -/
def Unmoved : Lts.StepCond (Control T) Label := fun a c =>
  c.pendingEvent = none →
    (∀ op ∈ unrendered A a c, ∀ s ∈ c.session, scrollInfo A (s.call A op) = scrollInfo A s) ∧
      (starts a c = true → (c.scrollOffset, c.scrollMax) = (0, 0))

instance (a : Label) (c : Control T) : Decidable (Unmoved A a c) :=
  inferInstanceAs (Decidable (_ → _ ∧ _))

end Position

/-- A new terminal has no history. -/
structure StartsEmpty (A : Alacritty T R) : Prop where
  offset : ∀ size scrollback, (A.grid (A.new size scrollback)).displayOffset = 0
  history : ∀ size scrollback, (A.grid (A.new size scrollback)).historySize = 0

/-! ## What keeps it -/

/-- What every step keeps and what is kept as long as nothing moves. -/
structure Sound (A : Alacritty T R) (c : Control T) : Prop where
  rendering : Rendering c
  settled : Settled A c

theorem call_onRender (op : Op) (s : Session T) : (s.call A op).onRender = s.onRender := by
  unfold Session.call
  split <;> rfl

theorem call_rendering {c : Control T} (hc : Rendering c) (op : Op) : Rendering (c.call A op) := by
  intro s hs
  rw [call_session, Option.mem_def, Option.map_eq_some_iff] at hs
  rcases hs with ⟨s₀, hs₀, rfl⟩
  rw [call_onRender]
  exact hc s₀ hs₀

theorem updateScrollInfo_session (c : Control T) : (c.updateScrollInfo A).session = c.session := by
  unfold updateScrollInfo
  split <;> simp_all

theorem updateScrollInfo_remembers (c : Control T) : Remembers A (c.updateScrollInfo A) := by
  intro s hs
  rw [updateScrollInfo_session] at hs
  simp only [updateScrollInfo, Option.mem_def.1 hs]
  rfl

/-- What gives a frame leaves one waiting. -/
theorem call_pending {c : Control T} (hc : Rendering c) {op : Op} (hop : op.renders = true) :
    c.session = none ∨ (c.call A op).pendingEvent ≠ none := by
  cases hs : c.session with
  | none => exact .inl rfl
  | some s =>
      have hon : s.onRender = true := hc s hs
      refine .inr ?_
      simp [call, hs, hop, Term.Session.call, Term.Session.requestRender, hon]

theorem settled_rule : Rule A fun c c' : Control T => Sound A c → Sound A c' where
  refl _ := id
  trans hfirst hsecond := hsecond ∘ hfirst
  call op c hop hc := by
    refine ⟨call_rendering hc.rendering op, fun hnone => ?_⟩
    rcases call_pending hc.rendering hop with hsession | hpending
    · intro s hs
      simp [hsession] at hs
    · exact absurd hnone hpending
  updateScrollInfo c hc := by
    refine ⟨?_, fun _ => updateScrollInfo_remembers c⟩
    intro s hs
    rw [updateScrollInfo_session] at hs
    exact hc.rendering s hs
  output chunks c hc := by
    unfold Control.output
    split
    · exact hc
    · next s hs =>
        have hon : s.onRender = true := hc.rendering s hs
        refine ⟨?_, fun hnone => ?_⟩
        · rintro s' ⟨⟩
          exact hon
        · simp [Term.Session.step, Term.Session.requestRender, hon] at hnone
  sendText _ _ hc := ⟨hc.rendering, hc.settled⟩
  sendKey vk mods c hc := by
    have hsession : ∀ s' ∈ (c.rataSendKey A vk mods).session,
        ∃ s ∈ c.session, s'.onRender = s.onRender ∧ scrollInfo A s' = scrollInfo A s := by
      intro s' hs'
      rcases Option.map_eq_some_iff.1 hs' with ⟨s, hs, rfl⟩
      exact ⟨s, hs, rfl, rfl⟩
    refine ⟨fun s' hs' => ?_, fun hnone s' hs' => ?_⟩
    all_goals rcases hsession s' hs' with ⟨s, hs, hon, hinfo⟩
    · exact hon.trans (hc.rendering s hs)
    · exact (hc.settled hnone s hs).trans hinfo.symm
  searching _ _ _ hc := ⟨hc.rendering, hc.settled⟩
  dragging _ _ _ _ _ _ _ hc := ⟨hc.rendering, hc.settled⟩
  flags _ _ _ _ hc := ⟨hc.rendering, hc.settled⟩

/-- A press keeps it, also where it starts a selection. -/
theorem mouseDown_sound {c : Control T} (hc : Sound A c) (button : MouseButton)
    (shift : ShiftState) (ax ay : Int) (now : UInt32) (doubleClick : Int) :
    Sound A (c.mouseDown A button shift ax ay now doubleClick) := by
  cases hcell : c.selectionCell A button shift ax ay with
  | none => exact settled_rule.mouseDown hcell now doubleClick hc
  | some cell =>
      rcases cell with ⟨col, row⟩
      rw [mouseDown_selection hcell]
      unfold startSelection
      extract_lets
      refine settled_rule.dragging _ _ true _ _ _ _ (settled_rule.call _ _ rfl ?_)
      exact ⟨hc.rendering, hc.settled⟩

theorem handleRenderMessage_sound {c : Control T} (hc : Sound A c) :
    Sound A (c.handleRenderMessage A) := by
  unfold Control.handleRenderMessage
  split
  · exact hc
  · refine ⟨?_, fun _ => updateScrollInfo_remembers _⟩
    intro s hs
    rw [updateScrollInfo_session] at hs
    exact hc.rendering s hs

/-! ## What does not -/

/-- An operation that gives no frame. -/
theorem call_settled_iff {c : Control T} (hc : Settled A c) {op : Op} (hop : op.renders = false) :
    Settled A (c.call A op) ↔
      (c.pendingEvent = none → ∀ s ∈ c.session, scrollInfo A (s.call A op) = scrollInfo A s) := by
  have hpending : (c.call A op).pendingEvent = c.pendingEvent := by
    unfold Control.call
    split
    · rfl
    · simp [hop]
  have haside : Aside fun c : Control T => (c.scrollOffset, c.scrollMax) := fun _ _ _ _ => rfl
  have hposition : ((c.call A op).scrollOffset, (c.call A op).scrollMax) =
      (c.scrollOffset, c.scrollMax) := haside.call op
  rw [Settled, hpending]
  refine forall_congr' fun hnone => ?_
  have hremembers := hc hnone
  simp only [Remembers, hposition, call_session]
  constructor
  · intro h s hs
    have hcall := h (s.call A op) (Option.map_eq_some_iff.2 ⟨s, hs, rfl⟩)
    rw [← hcall, hremembers s hs]
  · intro h s' hs'
    rcases Option.map_eq_some_iff.1 hs' with ⟨s, hs, rfl⟩
    rw [h s hs, hremembers s hs]

theorem applyResize_settled_iff {c : Control T} (hc : Sound A c) :
    Rendering (c.applyResize A) ∧
      (Settled A (c.applyResize A) ↔ (c.pendingEvent = none → ∀ s ∈ c.session,
        scrollInfo A (s.call A (.resize (word c.calcCols) (word c.calcRows))) =
          scrollInfo A s)) := by
  have hsized : Sound A { c with cols := c.calcCols, rows := c.calcRows } :=
    ⟨hc.rendering, hc.settled⟩
  exact ⟨call_rendering hsized.rendering _, call_settled_iff hsized.settled rfl⟩

theorem start_settled_iff (hA : StartsEmpty A) {c : Control T} (hc : Settled A c)
    (scrollback : UInt32) :
    Settled A (c.start A scrollback) ↔ (c.pendingEvent = none →
      c.active = false → (c.scrollOffset, c.scrollMax) = (0, 0)) := by
  unfold Control.start
  split
  · next hactive =>
      refine iff_of_true hc fun _ hinactive => ?_
      rw [hactive] at hinactive
      cases hinactive
  · next hactive =>
      have hinactive : c.active = false := by simpa using hactive
      have hinfo : scrollInfo A (c.createSession A scrollback) = (0, 0) :=
        Prod.ext (congrArg UInt32.ofNat (hA.offset _ _)) (congrArg UInt32.ofNat (hA.history _ _))
      simp [Settled, Remembers, hinfo, hinactive]

/-- Without such an operation or a start nothing moves. -/
theorem unmoved_of_none {a : Label} {c : Control T} (hop : unrendered A a c = none)
    (hstarts : starts a c = false) : Unmoved A a c := by
  intro _
  refine ⟨fun op h => ?_, fun h => ?_⟩
  · rw [hop] at h
    cases h
  · rw [hstarts] at h
    cases h

/-- Without a start only the operation counts. -/
theorem unmoved_of_some {a : Label} {c : Control T} {op : Op} (hop : unrendered A a c = some op)
    (hstarts : starts a c = false) : Unmoved A a c ↔
      (c.pendingEvent = none → ∀ s ∈ c.session, scrollInfo A (s.call A op) = scrollInfo A s) := by
  simp [Unmoved, hop, hstarts]

/-! ## Runs -/

/-- A message that searches. -/
theorem search_settled_iff {a : Label} {c c' : Control T} {pattern : String} {forward : Bool}
    (ha : a.outward = false) (hsearch : c.searches A a = some (pattern, forward))
    (hstep : c.handle A a = some c') (hc : Sound A c) :
    Rendering c' ∧ (Settled A c' ↔ Unmoved A a c) := by
  rcases handle_searches hsearch hstep with ⟨last, rfl⟩
  have hlast : Sound A { c with lastSearchPattern := last } := ⟨hc.rendering, hc.settled⟩
  have hstarts : starts a c = false := by
    cases a with
    | start scrollback => cases ha
    | _ => rfl
  have hop : unrendered A a c =
      if pattern = "" then none else some (.searchNext pattern forward) := by
    cases a with
    | wmSize width height | fontChanged cellW cellH => cases ha
    | _ => simp only [unrendered, hsearch]
  unfold Control.searchNext
  split
  · next hempty =>
      rw [if_pos hempty] at hop
      exact ⟨hlast.rendering, iff_of_true hlast.settled (unmoved_of_none hop hstarts)⟩
  · next hpattern =>
      rw [if_neg hpattern] at hop
      refine ⟨call_rendering hlast.rendering _, ?_⟩
      rw [unmoved_of_some hop hstarts]
      exact call_settled_iff hlast.settled rfl

theorem handle_settled_iff (hA : StartsEmpty A) {a : Label} {c c' : Control T}
    (hstep : c.handle A a = some c') (hc : Sound A c) :
    Rendering c' ∧ (Settled A c' ↔ Unmoved A a c) := by
  have hkept : Sound A c' → unrendered A a c = none → starts a c = false →
      Rendering c' ∧ (Settled A c' ↔ Unmoved A a c) := fun hc' hop hstarts =>
    ⟨hc'.rendering, iff_of_true hc'.settled (unmoved_of_none hop hstarts)⟩
  by_cases ha : a.outward = false
  · cases hsearch : c.searches A a with
    | some search => exact search_settled_iff ha hsearch hstep hc
    | none =>
        refine hkept (settled_rule.handle ha hsearch hstep hc) ?_ ?_
        · cases a with
          | wmSize width height | fontChanged cellW cellH => cases ha
          | _ => simp only [unrendered, hsearch]
        · cases a with
          | start scrollback => cases ha
          | _ => rfl
  · cases a with
    | mouseDown button shift ax ay now doubleClick =>
        cases hstep
        exact hkept (mouseDown_sound hc button shift ax ay now doubleClick) rfl rfl
    | wmRataRender =>
        cases hstep
        exact hkept (handleRenderMessage_sound hc) rfl rfl
    | wmSize width height =>
        cases hstep
        rw [unmoved_of_some rfl rfl]
        exact applyResize_settled_iff (c := { c with clientWidth := width, clientHeight := height })
          ⟨hc.rendering, hc.settled⟩
    | fontChanged cellW cellH =>
        cases hstep
        rw [unmoved_of_some rfl rfl]
        exact applyResize_settled_iff (c := { c with cellW := cellW, cellH := cellH })
          ⟨hc.rendering, hc.settled⟩
    | start scrollback =>
        cases hstep
        refine ⟨?_, (start_settled_iff hA hc.settled scrollback).trans ?_⟩
        · unfold Control.start
          split
          · exact hc.rendering
          · rintro s ⟨⟩
            rfl
        · simp [Unmoved, unrendered, Control.searches, starts]
    | stop =>
        cases hstep
        refine hkept ⟨?_, ?_⟩ rfl rfl
        · rintro s ⟨⟩
        · rintro _ s ⟨⟩
    | _ => exact absurd rfl ha

/-- In every run of messages and methods, the remembered position is that of the terminal in
each state where no frame waits, exactly when no search or resize moves the view or the end
of the history while none waits, and no session starts with another position than 0
remembered. -/
theorem settled_iff (hA : StartsEmpty A) (cellW cellH clientWidth clientHeight : Int)
    (as : List Label) :
    (machine A).Along (Settled A) (create cellW cellH clientWidth clientHeight) as ↔
      (machine A).Meets (Unmoved A) (create cellW cellH clientWidth clientHeight) as := by
  have hsound : ∀ c : Control T, Sound A c → Sound A c.clearSent :=
    fun _ hc => ⟨hc.rendering, hc.settled⟩
  refine Lts.Machine.along_iff_meets_of (J := Sound A) (fun _ hc => hc.settled) ?_ ?_ as ?_
  · intro a c c' hstep hc hunmoved
    rcases handle_settled_iff hA hstep (hsound c hc) with ⟨hrendering, hiff⟩
    exact ⟨hrendering, hiff.2 hunmoved⟩
  · intro a c c' hstep hc hsettled
    exact (handle_settled_iff hA hstep (hsound c hc)).2.1 hsettled
  · refine ⟨?_, ?_⟩
    · rintro s ⟨⟩
    · rintro _ s ⟨⟩

theorem plain_startsEmpty : StartsEmpty plain where
  offset _ _ := rfl
  history size scrollback := by
    show (Plain.new size scrollback).historySize = 0
    simp [Plain.historySize, Plain.new]

/-- Lines have gone into the history, and the view is scrolled to it. -/
def scrolledUp : List Label :=
  [.start 100, .output [[0x78, 13, 10, 13, 10, 13, 10]], .wmRataRender, .method .scrollToTop,
    .wmRataRender]

/-- A restart keeps the position of the session before. -/
theorem settled_iff_restart :
    (machine plain).Along (Settled plain) (create 8 16 172 32) scrolledUp ∧
      ¬ (machine plain).Along (Settled plain) (create 8 16 172 32)
        (scrolledUp ++ [.stop, .start 100]) :=
  ⟨(settled_iff plain_startsEmpty 8 16 172 32 _).2 (by decide +kernel),
    fun h => absurd ((settled_iff plain_startsEmpty 8 16 172 32 _).1 h) (by decide +kernel)⟩

end RataShell.Input.Remembered
