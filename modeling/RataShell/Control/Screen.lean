import RataShell.Control.RenderMessages
import RataShell.Session.Flow
import RataShell.Term.Backend

/-!
# From the shell to the screen

The threads of a session, the closure that `rata_session_set_callbacks` makes of
`RataRenderProc`, and the window thread of the control, step by step in any order.

* `Call.Of`: the event that the closure makes of a snapshot.
* `Inv`: the frames that the pump has rendered are the events that were stored.
* `screen_at_rest`: at rest the control has what the terminal makes of all that the
  shell wrote.
-/

namespace RataShell.Screen

open Control.RenderEvents (Call Last RataCell RataRect RataRenderEvent)
open Session (Callbacks HostCall KeptInv Pump Resume)
open Term (Alacritty HostBackend HostCell Rect RenderSnapshot TermHost)

variable {T R : Type}

/-! ## The render callback -/

/-- `cell_to_c`. -/
def cellToC (c : HostCell) : RataCell where
  ch := c.ch
  fg := c.fg
  bg := c.bg
  attrs := c.attrs
  width := c.width
  pad := 0
  hyperlinkId := c.hyperlinkId

/-- A rectangle of the event. -/
def rectToC (r : Rect) : RataRect := ⟨.ofNat r.x, .ofNat r.y, .ofNat r.w, .ofNat r.h⟩

/-- The event of the closure, with its two arrays at the addresses `rects` and `cells`. -/
def renderEvent (snap : RenderSnapshot) (rects cells : UInt64) : RataRenderEvent where
  cols := snap.cols
  rows := snap.rows
  cursorX := snap.cursorX
  cursorY := snap.cursorY
  cursorVisible := if snap.cursorVisible then 1 else 0
  cursorStyle := snap.cursorStyle
  altActive := if snap.altActive then 1 else 0
  pad := 0
  dirtyRects := rects
  dirtyCount := .ofNat snap.dirty.length
  cells := cells
  cellsLen := .ofNat snap.cells.length
  modeFlags := snap.modeFlags
  pad2 := 0

/-- `RataRenderProc` is called for the snapshot. -/
structure Of (snap : RenderSnapshot) (c : Call) : Prop where
  event : c.event = renderEvent snap c.event.dirtyRects c.event.cells
  cells : c.cells = snap.cells.map cellToC
  dirtyRects : c.dirtyRects = snap.dirty.map rectToC

instance (snap : RenderSnapshot) (c : Call) : Decidable (Of snap c) :=
  decidable_of_iff (c.event = renderEvent snap c.event.dirtyRects c.event.cells ∧
      c.cells = snap.cells.map cellToC ∧ c.dirtyRects = snap.dirty.map rectToC)
    ⟨fun h => ⟨h.1, h.2.1, h.2.2⟩, fun h => ⟨h.event, h.cells, h.dirtyRects⟩⟩

theorem length_foldl_join_le (rects out : List Term.Rect) :
    (rects.foldl Term.join out).length ≤ out.length + rects.length := by
  induction rects generalizing out with
  | nil => simp
  | cons r rects ih =>
      have hjoin : (Term.join out r).length ≤ out.length + 1 := by
        unfold Term.join
        split
        · split <;> simp
        · simp
      have hle := ih (Term.join out r)
      rw [List.foldl_cons, List.length_cons]
      omega

/-- At most one rectangle a row, or the one of a whole frame. -/
theorem dirty_length_le (cols rows : UInt16) (now : List Term.HostCell) (b : HostBackend) :
    (b.dirty cols rows now).length ≤ rows.toNat + 1 := by
  unfold HostBackend.dirty
  split
  · split
    · rename_i prev _ _
      have hfold := length_foldl_join_le
        ((Term.changedRows cols.toNat rows.toNat prev now).mergeSort fun a b => a.y ≤ b.y) []
      have hfilter := List.length_filter_le
        (fun y => !Term.cellsEq (Term.rowOf cols.toNat now y) (Term.rowOf cols.toNat prev y))
        (List.range rows.toNat)
      simp only [List.length_mergeSort, Term.changedRows, List.length_map, List.length_nil,
        List.length_range] at hfold hfilter
      rw [Term.coalesce]
      simp only [Term.changedRows]
      omega
    · simp
  · simp

/-- The cells and the rectangles of a snapshot fit into memory. -/
theorem render_lengths (A : Alacritty T R) (t : TermHost T) (b : HostBackend) :
    (b.render A t).cells.length ≤ 65535 * 65535 ∧ (b.render A t).dirty.length ≤ 65536 := by
  have hbounds := t.size_bounds
  have hrows : t.size.lines * t.size.cols ≤ 65535 * 65535 :=
    Nat.mul_le_mul (by omega) (by omega)
  have hcells : (b.render A t).cells.length = t.size.lines * t.size.cols := t.length_cells A
  have hdirty : (b.render A t).dirty.length ≤ (t.snapshotMeta A).rows.toNat + 1 :=
    dirty_length_le _ _ _ b
  have hrowsBound := (t.snapshotMeta A).rows.toNat_lt
  omega

/-- The call of `RataRenderProc` for a snapshot, at some address. -/
def renderCall (A : Alacritty T R) (t : TermHost T) (b : HostBackend) : Call where
  event := renderEvent (b.render A t) 0 0
  cells := (b.render A t).cells.map cellToC
  dirtyRects := (b.render A t).dirty.map rectToC
  dest := 0x10000
  cellsLen := by
    have hlengths := render_lengths A t b
    rw [List.length_map]
    exact Nat.mod_eq_of_lt (by omega)
  dirtyCount := by
    have hlengths := render_lengths A t b
    rw [List.length_map]
    exact Nat.mod_eq_of_lt (by omega)
  fits := by
    have hlengths := render_lengths A t b
    rw [List.length_map, List.length_map]
    change 0x10000 + _ < _
    omega

theorem renderCall_of (A : Alacritty T R) (t : TermHost T) (b : HostBackend) :
    Of (b.render A t) (renderCall A t b) := ⟨rfl, rfl, rfl⟩

/-! ## The machine -/

/-- A session with its terminal and render backend, the snapshot in the pump's hand, the
window, and all that the shell wrote so far. -/
structure State (T : Type) where
  session : Session.State (TermHost T)
  backend : HostBackend
  snap : RenderSnapshot
  window : Control.RenderEvents.State Unit
  wrote : List UInt8

/-- A step of the session, the entry of `RataRenderProc` from the pump, and a step of
the window or of `RataRenderProc`. -/
inductive Label where
  | session (a : Session.Label)
  | render (c : Call)
  | window (a : Control.RenderEvents.Label Unit)

/-- The pump is inside `RataRenderProc`. -/
def inRender : Pump (TermHost T) → Bool
  | .inCall (.rendered _) | .inCall .finalRendered => true
  | _ => false

/-- The pump is about to take a snapshot. -/
def atSnapshot : Pump (TermHost T) → Bool
  | .snapshot _ | .eofSnapshot => true
  | _ => false

/-- The frame that the pump is to render next. -/
def atRender : Pump (TermHost T) → Option (TermHost T)
  | .call (.render t) _ => some t
  | _ => none

section Machine

variable (A : Alacritty T R) (events : TermHost T → List UInt8 → List Session.Event)

/-- `TermHost::advance`, with what its listener gets. -/
def advance (t : TermHost T) (bytes : List UInt8) : TermHost T × List Session.Event :=
  (t.advance A bytes, events t bytes)

/-- A step of the pump but for the entry of `RataRenderProc`, from which it returns when
that has ended. -/
def pumpStep (s : State T) : Option (State T) :=
  if (atRender s.session.pump).isSome then none
  else if inRender s.session.pump ∧ s.window.callers () ≠ .idle then none
  else
    (Session.step (advance A events) .pump s.session).map fun session =>
      if atSnapshot s.session.pump then
        { s with
          session := session
          backend := HostBackend.remember A s.session.term
          snap := s.backend.render A s.session.term }
      else { s with session := session }

/-- Any other step of the session. -/
def sessionStep (a : Session.Label) (s : State T) : Option (State T) :=
  (Session.step (advance A events) a s.session).map fun session =>
    { s with session := session, wrote := s.wrote ++ a.written }

/-- The pump enters `RataRenderProc`. -/
def renderStep (c : Call) (s : State T) : Option (State T) :=
  if (atRender s.session.pump).isSome ∧ Of s.snap c then
    (Session.step (advance A events) .pump s.session).bind fun session =>
      (Control.RenderEvents.call () (some c) s.window).map fun window =>
        { s with session := session, window := window }
  else none

/-- A step of the window thread, of `RataRenderProc`, or of the handle. -/
def windowStep (a : Control.RenderEvents.Label Unit) (s : State T) : Option (State T) :=
  match a with
  | .call _ _ => none
  | a => (Control.RenderEvents.step a s.window).map fun window => { s with window := window }

def step (a : Label) (s : State T) : Option (State T) :=
  match a with
  | .session a => if a = .pump then pumpStep A events s else sessionStep A events a s
  | .render c => renderStep A events c s
  | .window a => windowStep a s

/-- A session before its start, with a new control. -/
def init (t₀ : TermHost T) (title : String) (cbs : Callbacks) (code : Int32) : State T where
  session := Session.init t₀ title cbs code
  backend := .new
  snap := HostBackend.new.render A t₀
  window := Control.RenderEvents.created
  wrote := []

/-- The session and its window as a machine, from content `t₀` and callbacks `cbs` on. -/
def machine (t₀ : TermHost T) (cbs : Callbacks) : Lts.Machine (State T) Label where
  Init s := ∃ title code, s = init A t₀ title cbs code
  step := step A events

end Machine

/-- The callbacks are `cbs`, and the host does not destroy the session. -/
def Kept (cbs : Callbacks) : Lts.StepCond (State T) Label := fun _ s =>
  s.session.callbacks = cbs ∧ s.session.drop = .notStarted

instance (cbs : Callbacks) (a : Label) (s : State T) : Decidable (Kept cbs a s) :=
  inferInstanceAs (Decidable (_ ∧ _))

/-! ## What the pump does to its frames -/

/-- The snapshot in the pump's hand is of this content. -/
def snapOf : Pump (TermHost T) → Option (TermHost T)
  | .render t _ | .eofRender t => some t
  | .call (.render t) _ => some t
  | _ => none

/-- A render call is one of the two places that render. -/
def Site (p : Pump (TermHost T)) : Prop :=
  ∀ t k, p = .call (.render t) k → inRender (.inCall k : Pump (TermHost T)) = true

section Pump

variable {adv : TermHost T → List UInt8 → TermHost T × List Session.Event}
  {s s' : Session.State (TermHost T)}

theorem atRender_eq_some {p : Pump (TermHost T)} {t : TermHost T} (h : atRender p = some t) :
    ∃ k, p = .call (.render t) k := by
  unfold atRender at h
  split at h
  · cases h
    exact ⟨_, rfl⟩
  · cases h

theorem lookup_snapOf {c : HostCall (TermHost T)} {k : Resume} {t : TermHost T}
    (h : snapOf (s.lookup c k) = some t) : c.frame = some t := by
  unfold Session.State.lookup at h
  split at h
  · cases c with
    | render t => exact h
    | _ => cases h
  · rcases k with _ | b | _ | _
    · cases h
    · cases b <;> cases h
    · cases h
    · cases h

theorem next_snapOf (k : Resume) : snapOf (k.next : Pump (TermHost T)) = none := by
  fun_cases Resume.next k <;> rfl

theorem hostCall_frame {e : Session.Event} {c : HostCall (TermHost T)}
    (h : e.hostCall = some c) : c.frame = none := by
  cases e <;> simp [Session.Event.hostCall] at h <;> subst h <;> rfl

/-- A snapshot in the pump's hand was there before, or is of the content now. -/
theorem pump_snapOf (h : Session.pumpStep adv s = some s') {t : TermHost T}
    (ht : snapOf s'.pump = some t) :
    if atSnapshot s.pump then t = s.term else snapOf s.pump = some t := by
  cases Session.pumpStep_move h with
  | snapshot hp | eofSnapshot hp =>
      cases ht
      rw [hp]
      rfl
  | dispatchCall hp he =>
      have hframe := lookup_snapOf ht
      rw [hostCall_frame he] at hframe
      cases hframe
  | render hp | eofRender hp =>
      have hframe := lookup_snapOf ht
      rw [hp]
      exact hframe
  | notifyExit hp => cases lookup_snapOf ht
  | inCall hp _ =>
      rw [next_snapOf] at ht
      cases ht
  | _ => cases ht

theorem lookup_site {c : HostCall (TermHost T)} {k : Resume}
    (h : c.frame ≠ none → inRender (.inCall k : Pump (TermHost T)) = true) :
    Site (s.lookup c k) := by
  intro t k' heq
  unfold Session.State.lookup at heq
  split at heq
  · cases heq
    exact h nofun
  · rcases k with _ | b | _ | _
    · cases heq
    · cases b <;> cases heq
    · cases heq
    · cases heq

theorem pump_site (h : Session.pumpStep adv s = some s') : Site s'.pump := by
  cases Session.pumpStep_move h with
  | dispatchCall hp he => exact lookup_site fun hne => absurd (hostCall_frame he) hne
  | render | eofRender => exact lookup_site fun _ => rfl
  | notifyExit => exact lookup_site fun hne => absurd rfl hne
  | inCall hp _ =>
      intro t k heq
      have hsnap := congrArg snapOf heq
      rw [next_snapOf] at hsnap
      cases hsnap
  | _ => nofun

/-- The frames rendered grow by the one that the pump is at. -/
theorem pump_frames (h : Session.pumpStep adv s = some s') :
    s'.calls.filterMap HostCall.frame =
      s.calls.filterMap HostCall.frame ++ (atRender s.pump).toList := by
  cases Session.pumpStep_move h with
  | @call c k hp =>
      rw [hp, List.filterMap_append]
      cases c <;> rfl
  | advance hp => rcases hp with hp | hp <;> simp [hp, atRender, Session.State.advance]
  | _ => simp_all [atRender]

end Pump

/-! ## The invariant -/

/-- The event that a caller has not stored yet. -/
def unstored : Control.RenderEvents.Caller → List Call
  | .storing c | .entered c | .bufSet c => [c]
  | _ => []

/-- An event of a snapshot of the content, after some snapshot before it. -/
def Draws (A : Alacritty T R) (t : TermHost T) (c : Call) : Prop :=
  ∃ b : HostBackend, Of (b.render A t) c

structure Inv (A : Alacritty T R) (events : TermHost T → List UInt8 → List Session.Event)
    (t₀ : TermHost T) (s : State T) : Prop where
  session : KeptInv (advance A events) t₀ s.wrote s.session
  window : Control.RenderEvents.Sound s.window
  snap : ∀ t, snapOf s.session.pump = some t → ∃ b : HostBackend, s.snap = b.render A t
  site : Site s.session.pump
  drawn : List.Forall₂ (Draws A) (s.session.calls.filterMap HostCall.frame)
    (s.window.stored ++ unstored (s.window.callers ()))
  inside : s.window.callers () ≠ .idle → inRender s.session.pump = true

section Steps

variable {A : Alacritty T R} {events : TermHost T → List UInt8 → List Session.Event}
  {t₀ : TermHost T} {cbs : Callbacks} {s s' : State T}

theorem init_inv (title : String) (code : Int32) :
    Inv A events t₀ (init A t₀ title cbs code) where
  session := Session.init_keptInv t₀ title cbs code
  window := Control.RenderEvents.created_sound
  snap := nofun
  site := nofun
  drawn := .nil
  inside h := absurd rfl h

theorem pumpStep_inv (h : pumpStep A events s = some s') (hkept : s.session.callbacks = cbs ∧
    s.session.drop = .notStarted) (hrender : cbs.on_render = true) (hs : Inv A events t₀ s) :
    Inv A events t₀ s' := by
  unfold pumpStep at h
  split at h
  · cases h
  rename_i hat
  split at h
  · cases h
  rename_i hfree
  rcases Option.map_eq_some_iff.1 h with ⟨session, hstep, rfl⟩
  have hkeep := Session.step_keptInv hstep hkept hrender hs.session
  have hwrote : s.wrote ++ Session.Label.pump.written = s.wrote := List.append_nil _
  rw [hwrote] at hkeep
  have hidle : s.window.callers () = .idle := by
    by_contra hne
    exact hfree ⟨hs.inside hne, hne⟩
  have hframes : session.calls.filterMap HostCall.frame =
      s.session.calls.filterMap HostCall.frame := by
    rw [pump_frames hstep, Option.not_isSome_iff_eq_none.1 hat]
    exact List.append_nil _
  have hdrawn := hs.drawn
  rw [← hframes] at hdrawn
  split
  · rename_i hsnapshot
    refine ⟨hkeep, hs.window, fun t ht => ?_, pump_site hstep, hdrawn, fun hne => absurd hidle hne⟩
    have hterm := pump_snapOf hstep ht
    rw [if_pos hsnapshot] at hterm
    exact ⟨s.backend, by rw [hterm]⟩
  · rename_i hsnapshot
    refine ⟨hkeep, hs.window, fun t ht => ?_, pump_site hstep, hdrawn, fun hne => absurd hidle hne⟩
    have hterm := pump_snapOf hstep ht
    rw [if_neg hsnapshot] at hterm
    exact hs.snap t hterm

theorem sessionStep_inv {a : Session.Label} (ha : a ≠ .pump)
    (h : sessionStep A events a s = some s') (hkept : s.session.callbacks = cbs ∧
    s.session.drop = .notStarted) (hrender : cbs.on_render = true) (hs : Inv A events t₀ s) :
    Inv A events t₀ s' := by
  rcases Option.map_eq_some_iff.1 h with ⟨session, hstep, rfl⟩
  have hkeep := Session.step_keptInv hstep hkept hrender hs.session
  have hbeside := Session.step_beside ha hstep hs.session.phases
  rcases hbeside.calls with ⟨codes, hcalls⟩
  have hno : (codes.map HostCall.exit : List (HostCall (TermHost T))).filterMap HostCall.frame =
      [] := by
    simp [HostCall.frame]
  have hframes : session.calls.filterMap HostCall.frame =
      s.session.calls.filterMap HostCall.frame := by
    rw [hcalls, List.filterMap_append, hno, List.append_nil]
  have hdrawn := hs.drawn
  rw [← hframes] at hdrawn
  rcases hbeside.pump with hp | ⟨hp, hp'⟩
  · refine ⟨hkeep, hs.window, ?_, ?_, hdrawn, ?_⟩
    · rw [hp]
      exact hs.snap
    · rw [hp]
      exact hs.site
    · rw [hp]
      exact hs.inside
  · refine ⟨hkeep, hs.window, ?_, ?_, hdrawn, fun hne => ?_⟩
    · rw [hp']
      rintro t ⟨⟩
    · rw [hp']
      rintro t k ⟨⟩
    · have hin := hs.inside hne
      rw [hp] at hin
      cases hin

theorem renderStep_inv {c : Call} (h : renderStep A events c s = some s')
    (hkept : s.session.callbacks = cbs ∧ s.session.drop = .notStarted)
    (hrender : cbs.on_render = true) (hs : Inv A events t₀ s) : Inv A events t₀ s' := by
  unfold renderStep at h
  split at h
  · rename_i hat
    rcases hat with ⟨hat, hof⟩
    rcases Option.isSome_iff_exists.1 hat with ⟨t, ht⟩
    rcases atRender_eq_some ht with ⟨k, hp⟩
    rcases Option.bind_eq_some_iff.1 h with ⟨session, hstep, hcall⟩
    rcases Option.map_eq_some_iff.1 hcall with ⟨window, hwindow, rfl⟩
    have hkeep := Session.step_keptInv hstep hkept hrender hs.session
    have hwrote : s.wrote ++ Session.Label.pump.written = s.wrote := List.append_nil _
    rw [hwrote] at hkeep
    have hframes := pump_frames hstep
    rw [ht] at hframes
    have hpump : session.pump = .inCall k := by
      cases Session.pumpStep_move hstep <;> simp_all
    have hsound := Control.RenderEvents.call_sound hwindow hs.window
    -- the caller was idle, and is about to store the event
    unfold Control.RenderEvents.call at hwindow
    split at hwindow
    · rename_i hidle
      cases hwindow
      have hdrawn := hs.drawn
      rw [hidle] at hdrawn
      refine ⟨hkeep, hsound, ?_, ?_, ?_, fun _ => ?_⟩
      · rw [hpump]
        rintro t ⟨⟩
      · rw [hpump]
        rintro t k ⟨⟩
      · rcases hs.snap t (by rw [hp]; rfl) with ⟨b, hsnap⟩
        have hdraws : Draws A t c := ⟨b, hsnap ▸ hof⟩
        simp only [unstored, List.append_nil] at hdrawn
        rw [hframes]
        simp only [Control.RenderEvents.State.at', Function.update_self]
        exact List.rel_append hdrawn (.cons hdraws .nil)
      · rw [hpump]
        exact hs.site t k hp
    · cases hwindow
  · cases h

/-- `RataRenderProc` stores the event that it was called with. -/
theorem callerStep_stored {ι : Type} [DecidableEq ι] {i : ι}
    {w w' : Control.RenderEvents.State ι}
    (h : Control.RenderEvents.callerStep i w = some w') :
    w.callers i ≠ .idle ∧
      w'.stored ++ unstored (w'.callers i) = w.stored ++ unstored (w.callers i) := by
  unfold Control.RenderEvents.callerStep at h
  split at h
  all_goals
    rename_i hc
    try split at h
  all_goals
    cases h
    try simp [hc, unstored, Control.RenderEvents.State.at']

/-- The window thread leaves the callers alone. -/
theorem uiStep_stored {ι : Type} {w w' : Control.RenderEvents.State ι}
    (h : Control.RenderEvents.uiStep w = some w') :
    w'.stored = w.stored ∧ w'.callers = w.callers := by
  unfold Control.RenderEvents.uiStep at h
  repeat' split at h
  all_goals cases h
  all_goals exact ⟨rfl, rfl⟩

theorem handleStep_stored {ι : Type} {handle : Bool} {w w' : Control.RenderEvents.State ι}
    (h : Control.RenderEvents.handleStep handle w = some w') :
    w'.stored = w.stored ∧ w'.callers = w.callers := by
  unfold Control.RenderEvents.handleStep at h
  repeat' split at h
  all_goals cases h
  all_goals exact ⟨rfl, rfl⟩

theorem windowStep_inv {a : Control.RenderEvents.Label Unit} (h : windowStep a s = some s')
    (hs : Inv A events t₀ s) : Inv A events t₀ s' := by
  have hlift : ∀ w, Control.RenderEvents.step a s.window = some w →
      w.stored ++ unstored (w.callers ()) =
        s.window.stored ++ unstored (s.window.callers ()) →
      (w.callers () ≠ .idle → s.window.callers () ≠ .idle) →
      Inv A events t₀ { s with window := w } := by
    intro w hstep hstored hidle
    refine ⟨hs.session, Control.RenderEvents.step_sound hstep hs.window, hs.snap, hs.site, ?_,
      fun hne => hs.inside (hidle hne)⟩
    rw [hstored]
    exact hs.drawn
  cases a with
  | call i c => cases h
  | caller i =>
      rcases Option.map_eq_some_iff.1 h with ⟨w, hstep, rfl⟩
      rcases callerStep_stored hstep with ⟨hne, hstored⟩
      exact hlift w hstep hstored fun _ => hne
  | ui =>
      rcases Option.map_eq_some_iff.1 h with ⟨w, hstep, rfl⟩
      rcases uiStep_stored hstep with ⟨hstored, hcallers⟩
      exact hlift w hstep (by rw [hstored, hcallers]) (by rw [hcallers]; exact id)
  | createHandle | destroyHandle =>
      rcases Option.map_eq_some_iff.1 h with ⟨w, hstep, rfl⟩
      rcases handleStep_stored hstep with ⟨hstored, hcallers⟩
      exact hlift w hstep (by rw [hstored, hcallers]) (by rw [hcallers]; exact id)

theorem step_inv {a : Label} (h : step A events a s = some s') (hkept : Kept cbs a s)
    (hrender : cbs.on_render = true) (hs : Inv A events t₀ s) : Inv A events t₀ s' := by
  cases a with
  | session a =>
      simp only [step] at h
      split at h
      · exact pumpStep_inv h hkept hrender hs
      · rename_i ha
        exact sessionStep_inv ha h hkept hrender hs
  | render c => exact renderStep_inv h hkept hrender hs
  | window a => exact windowStep_inv h hs

theorem reachable_inv (hrender : cbs.on_render = true)
    (h : (machine A events t₀ cbs).Reachable (Kept cbs) s) : Inv A events t₀ s := by
  refine Lts.Machine.init_invariant (Inv A events t₀) ?_ ?_ h
  · rintro s ⟨title, code, rfl⟩
    exact init_inv title code
  · exact fun a s s' hkept hstep hs => step_inv hstep hkept hrender hs

end Steps

/-! ## At rest -/

/-- What `HandleRenderMessage` keeps of a snapshot of the content. -/
def shown (A : Alacritty T R) (t : TermHost T) : Last where
  cursorStyle := (t.snapshotMeta A).cursorStyle
  cursorX := (t.snapshotMeta A).cursorX.toNat
  cursorY := (t.snapshotMeta A).cursorY.toNat
  cols := (t.snapshotMeta A).cols.toNat
  rows := (t.snapshotMeta A).rows.toNat
  cells := (t.cells A).map cellToC

theorem Draws.describes {A : Alacritty T R} {t : TermHost T} {c : Call} {last : Last}
    (h : Draws A t c) (hlast : Control.RenderEvents.Describes c last) : last = shown A t := by
  rcases h with ⟨b, hof⟩
  rcases hlast with ⟨hstyle, hx, hy, hcols, hrows, hcells⟩
  rw [hof.event] at hstyle hx hy hcols hrows
  rw [hof.cells] at hcells
  cases last
  simp_all [shown, renderEvent, HostBackend.render]

/-- Nothing is on its way from the shell to the control. -/
structure State.AtRest (s : State T) : Prop where
  session : s.session.AtRest
  window : Control.RenderEvents.Quiet s.window
  caller : s.window.callers () = .idle

instance (s : State T) : Decidable s.AtRest :=
  decidable_of_iff (s.session.AtRest ∧ Control.RenderEvents.Quiet s.window ∧
      s.window.callers () = .idle)
    ⟨fun h => ⟨h.1, h.2.1, h.2.2⟩, fun h => ⟨h.session, h.window, h.caller⟩⟩

/-- What the terminal makes of buffers. -/
def advanced (A : Alacritty T R) (t₀ : TermHost T) (bufs : List (List UInt8)) : TermHost T :=
  bufs.foldl (fun t buf => t.advance A buf) t₀

theorem feed_advance (A : Alacritty T R)
    (events : TermHost T → List UInt8 → List Session.Event) (t₀ : TermHost T)
    (bufs : List (List UInt8)) :
    (Feed.feed (advance A events) t₀ bufs).1 = advanced A t₀ bufs := by
  induction bufs generalizing t₀ with
  | nil => rfl
  | cons buf bufs ih => exact ih (t₀.advance A buf)

/-- The control shows what the terminal makes of all that the shell wrote, and this is
what `DrawEvent` got last. -/
structure Current (A : Alacritty T R) (t₀ : TermHost T) (s : State T) : Prop where
  bytes : (Session.chunks s.session.received).flatten = s.wrote
  last : s.window.last = shown A (advanced A t₀ (Session.chunks s.session.received))
  drawn : ∃ c : Call, s.window.received.getLast? = some c.received ∧
    Draws A (advanced A t₀ (Session.chunks s.session.received)) c

variable {A : Alacritty T R} {events : TermHost T → List UInt8 → List Session.Event}
  {t₀ : TermHost T} {cbs : Callbacks} {s : State T}

theorem getLast?_of_forall₂ {α β : Type} {r : α → β → Prop} {l : List α} {l' : List β}
    (h : List.Forall₂ r l l') {a : α} (ha : l.getLast? = some a) :
    ∃ b, l'.getLast? = some b ∧ r a b := by
  have hreverse := List.forall₂_reverse_iff.2 h
  rw [← List.head?_reverse] at ha ⊢
  generalize l.reverse = m at hreverse ha
  generalize l'.reverse = m' at hreverse
  cases hreverse with
  | nil => cases ha
  | cons hab _ =>
      cases ha
      exact ⟨_, rfl, hab⟩

/-- Once all messages are processed, the event stored last has been received, and the
control shows it. -/
theorem window_shows {ι : Type} {w : Control.RenderEvents.State ι}
    (hs : Control.RenderEvents.Sound w) (hquiet : Control.RenderEvents.Quiet w)
    (hwoken : w.woken = true) {c : Call} (hc : w.stored.getLast? = some c) :
    w.received.getLast? = some c.received ∧ Control.RenderEvents.Describes c w.last := by
  rcases hs.filled with ⟨m, hm, hfilled⟩
  rcases hquiet with ⟨hmessages, hidle, hcallers⟩
  -- an event that waits is owed a message, and none is under way
  have hevent : w.pendingEvent = none := by
    by_contra hne
    rcases hs.awake hne hwoken with hpos | htakes | ⟨i, howes⟩
    · omega
    · rw [hidle] at htakes
      cases htakes
    · rcases hcallers i with ⟨hset, hposting⟩
      cases hcaller : w.callers i <;> simp_all [Control.RenderEvents.Caller.owes]
  have hpending : m.pending = none := Option.map_eq_none_iff.1 (hfilled.pending.symm.trans hevent)
  have hlast := (hm.drained hpending).2
  rw [hfilled.put, hc] at hlast
  have hreceived : w.received.getLast? = some c.received := by
    rw [← hfilled.taken, List.getLast?_map, hlast]
    rfl
  rcases hfilled.shown (by rw [hidle]; rfl) _ hreceived with ⟨before, hshown⟩
  refine ⟨hreceived, ?_⟩
  rw [hshown]
  exact c.handleRenderMessage_describes before

theorem Inv.current (hs : Inv A events t₀ s) (hrest : s.AtRest)
    (hwoken : s.window.woken = true) (hwrote : s.wrote ≠ []) : Current A t₀ s := by
  rcases hs.session.shown hrest.session with ⟨hbytes, hterm, hframe⟩
  rw [feed_advance] at hterm
  have hdrawn := hs.drawn
  rw [hrest.caller, show unstored .idle = [] from rfl, List.append_nil] at hdrawn
  -- the last frame is the last event stored
  rcases getLast?_of_forall₂ hdrawn (hframe hwrote) with ⟨c, hstored, hdraws⟩
  rcases window_shows hs.window hrest.window hwoken hstored with ⟨hreceived, hdescribes⟩
  rw [hterm] at hdraws
  exact ⟨hbytes, hdraws.describes hdescribes, c, hreceived, hdraws⟩

/-- Whatever the order of the steps was, at rest the control shows what the terminal
makes of all that the shell wrote. -/
theorem screen_at_rest (hrender : cbs.on_render = true)
    (h : (machine A events t₀ cbs).Reachable (Kept cbs) s) (hrest : s.AtRest)
    (hwoken : s.window.woken = true) (hwrote : s.wrote ≠ []) : Current A t₀ s :=
  (reachable_inv hrender h).current hrest hwoken hwrote

/-! ## A run -/

/-- A terminal that queues no events. -/
def silent : TermHost Term.Plain → List UInt8 → List Session.Event := fun _ _ => []

def blankHost : TermHost Term.Plain := .new Term.plain 4 2 10

def drawing : Callbacks := ⟨true, false, false, false, false⟩

/-- The window is there, the session is started, and the shell writes two letters. -/
def written : List Label :=
  [.window .createHandle] ++ List.replicate 5 (.session .start) ++
    [.session (.shellWrite [0x68, 0x69])]

/-- The letters go to the screen. -/
def displayed : List Label :=
  written ++ [.session (.reader 2), .session (.reader 0)] ++
    List.replicate 7 (.session .pump) ++
    [.render (renderCall Term.plain (blankHost.advance Term.plain [0x68, 0x69]) .new)] ++
    List.replicate 5 (.window (.caller ())) ++ [.session .pump] ++ List.replicate 8 (.window .ui)

theorem screen_at_rest_displayed : ∃ s,
    (machine Term.plain silent blankHost drawing).run
        (init Term.plain blankHost "" drawing 0) displayed = some s ∧
      s.wrote = [0x68, 0x69] ∧ Current Term.plain blankHost s := by
  have hinit : (machine Term.plain silent blankHost drawing).Init
      (init Term.plain blankHost "" drawing 0) := ⟨"", 0, rfl⟩
  have hmeets : (machine Term.plain silent blankHost drawing).Meets (Kept drawing)
      (init Term.plain blankHost "" drawing 0) displayed := by decide +kernel
  have htest : ((machine Term.plain silent blankHost drawing).run
      (init Term.plain blankHost "" drawing 0) displayed).any (fun s =>
        decide (s.AtRest ∧ s.window.woken = true ∧ s.wrote = [0x68, 0x69])) = true := by
    decide +kernel
  rcases Lts.Machine.exists_reachable _ displayed hinit hmeets htest with ⟨s, hrun, hreach, hs⟩
  rcases of_decide_eq_true hs with ⟨hrest, hwoken, hwrote⟩
  refine ⟨s, hrun, hwrote, screen_at_rest rfl hreach hrest hwoken ?_⟩
  rw [hwrote]
  exact nofun

end RataShell.Screen
