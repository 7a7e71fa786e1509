import RataShell.Control.Screen
import RataShell.Session.Concurrent

/-!
# Several threads and the screen

Any number of threads call the operations of a session. Each enters `RataRenderProc` with the
frame that it has taken, which is delivered where `StoreRenderEvent` sets `FPendingEvent`; the
window thread takes what is there.

* `Linked`: the frame that a call of `RataRenderProc` is about.
* `threads_shown`: the control shows what a session in one thread has after some of the
  operations, and at last after all that render.
-/

namespace RataShell.Threads

open Concurrent (Content LastFrame Work oneByOne)
open Control.RenderEvents (Call Caller Describes Quiet Sound callerStep)
open Render (Frame NoOvertake Producer)
open Screen (Draws Of shown)
open Term (Alacritty TermHost plain)

variable {ι T R : Type}

/-! ## The machine -/

/-- A session and the window of its control. -/
structure State (ι T : Type) where
  session : Concurrent.State ι T
  window : Control.RenderEvents.State ι

/-- A step of an activation that is not in its callback, the entry of `RataRenderProc`, and a
step of it, of the window thread or of the handle. -/
inductive Label (ι : Type) where
  | session (a : Concurrent.Label ι)
  | render (i : ι) (c : Call)
  | window (a : Control.RenderEvents.Label ι)

/-- `on_render` is called with this frame next. -/
def toDraw {τ : Type} : Producer τ → Option (Frame τ)
  | .cloned f => some f
  | _ => none

/-- The activation is about to deliver its frame. -/
def stores : Caller → Bool
  | .bufSet _ => true
  | _ => false

section Machine

variable [DecidableEq ι] (A : Alacritty T R)

/-- Operations, snapshots, and returns from `on_render`. -/
def sessionStep (a : Concurrent.Label ι) (s : State ι T) : Option (State ι T) :=
  match a with
  | .work i w =>
      (Concurrent.step A (.work i w) s.session).map fun session => { s with session := session }
  | .render i =>
      if toDraw (s.session.render.producer i) = none ∧ s.window.callers i = .idle then
        (Concurrent.step A (.render i) s.session).map fun session => { s with session := session }
      else none

/-- The closure of `rata_session_set_callbacks` makes the event and calls `RataRenderProc`. -/
def renderStep (i : ι) (c : Call) (s : State ι T) : Option (State ι T) :=
  match toDraw (s.session.render.producer i) with
  | some f =>
      if Of (f.snap.frame A) c then
        (Control.RenderEvents.call i (some c) s.window).map fun window =>
          { s with window := window }
      else none
  | none => none

/-- `RataRenderProc` goes on. -/
def callbackStep (i : ι) (s : State ι T) : Option (State ι T) :=
  (callerStep i s.window).bind fun window =>
    if stores (s.window.callers i) then
      (Concurrent.step A (.render i) s.session).map fun session => ⟨session, window⟩
    else some { s with window := window }

/-- A step of `RataRenderProc`, of the window thread or of the handle. -/
def windowStep (a : Control.RenderEvents.Label ι) (s : State ι T) : Option (State ι T) :=
  match a with
  | .call _ _ => none
  | .caller i => callbackStep A i s
  | a => (Control.RenderEvents.step a s.window).map fun window => { s with window := window }

def step (a : Label ι) (s : State ι T) : Option (State ι T) :=
  match a with
  | .session a => sessionStep A a s
  | .render i c => renderStep A i c s
  | .window a => windowStep A a s

/-- A new session and a new control. -/
def created (cols rows : UInt16) (scrollback : Nat) : State ι T where
  session := Concurrent.created A cols rows scrollback
  window := Control.RenderEvents.created

def machine (ι : Type) [DecidableEq ι] (A : Alacritty T R) (cols rows : UInt16)
    (scrollback : Nat) : Lts.Machine (State ι T) (Label ι) where
  Init s := s = created A cols rows scrollback
  step := step A

end Machine

/-- No frame is stored while an older one is on its way. -/
def InOrder : Lts.StepCond (State ι T) (Label ι) := fun a s =>
  match a with
  | .window (.caller i) =>
      stores (s.window.callers i) = true → NoOvertake (.render i) s.session.render
  | _ => True

/-- Every activation has returned, and every message is processed. -/
structure State.AtRest (s : State ι T) : Prop where
  session : s.session.AtRest
  window : Quiet s.window

instance [Fintype ι] (a : Label ι) (s : State ι T) : Decidable (InOrder a s) :=
  match a with
  | .session _ | .render _ _ => isTrue trivial
  | .window (.caller i) =>
      inferInstanceAs (Decidable (stores (s.window.callers i) = true →
        NoOvertake (.render i) s.session.render))
  | .window (.call _ _) | .window .ui | .window .createHandle | .window .destroyHandle =>
      isTrue trivial

instance [Fintype ι] (s : State ι T) : Decidable s.AtRest :=
  decidable_of_iff (s.session.AtRest ∧ Quiet s.window)
    ⟨fun h => ⟨h.1, h.2⟩, fun h => ⟨h.session, h.window⟩⟩

/-! ## Frames and events -/

/-- The event of a frame. -/
def Drawn (A : Alacritty T R) (f : Frame (Content T)) (c : Call) : Prop := Of (f.snap.frame A) c

/-- What an activation is about in its call of `RataRenderProc`. -/
def Beside (A : Alacritty T R) (p : Producer (Content T)) : Caller → Prop
  | .idle => True
  | .storing c | .entered c | .bufSet c => ∃ f, p = .cloned f ∧ Drawn A f c
  | .eventSet | .posting => p = .inCall

/-- The events stored are those of the frames delivered. -/
structure Linked (A : Alacritty T R) (s : State ι T) : Prop where
  delivered : List.Forall₂ (Drawn A) s.session.render.received s.window.stored
  beside : ∀ i, Beside A (s.session.render.producer i) (s.window.callers i)

variable {A : Alacritty T R} {cols rows : UInt16} {scrollback : Nat} {s s' : State ι T}

theorem toDraw_eq_some {τ : Type} {p : Producer τ} {f : Frame τ} (h : toDraw p = some f) :
    p = .cloned f := by
  cases p with
  | cloned g =>
      cases h
      rfl
  | idle | snapped | inCall => cases h

theorem created_linked : Linked A (created A cols rows scrollback : State ι T) where
  delivered := .nil
  beside _ := trivial

/-- A step of the activation `i` leaves the others where they are. -/
theorem beside_of_others {p p' : ι → Producer (Content T)} {callers callers' : ι → Caller} {i : ι}
    (hs : ∀ j, Beside A (p j) (callers j)) (hp : ∀ j, j ≠ i → p' j = p j)
    (hcallers : ∀ j, j ≠ i → callers' j = callers j) (hi : Beside A (p' i) (callers' i)) (j : ι) :
    Beside A (p' j) (callers' j) := by
  by_cases hj : j = i
  · subst hj
    exact hi
  · rw [hp j hj, hcallers j hj]
    exact hs j

variable [DecidableEq ι]

/-- An activation with nothing to draw delivers nothing, and leaves the others alone. -/
theorem frameStep_before {i : ι} {t t' : Concurrent.State ι T}
    (h : Concurrent.frameStep A i t = some t') (hdraw : toDraw (t.render.producer i) = none) :
    t'.render.received = t.render.received ∧
      ∀ j, j ≠ i → t'.render.producer j = t.render.producer j := by
  have hrender : (Render.renderStep i t.render).received = t.render.received ∧
      ∀ j, j ≠ i → (Render.renderStep i t.render).producer j = t.render.producer j := by
    cases hp : t.render.producer i with
    | cloned f => simp [hp, toDraw] at hdraw
    | idle | snapped | inCall =>
        simp only [Render.renderStep, hp]
        exact ⟨trivial, fun j hj => Function.update_of_ne hj _ _⟩
  rcases Concurrent.frameStep_eq h with ⟨-, -, rfl⟩ | ⟨-, rfl⟩
  · exact hrender
  · exact hrender

/-- The activation that stores its event delivers its frame. -/
theorem frameStep_delivers {i : ι} {t t' : Concurrent.State ι T} {f : Frame (Content T)}
    (h : Concurrent.frameStep A i t = some t') (hp : t.render.producer i = .cloned f) :
    t'.render.received = t.render.received ++ [f] ∧
      t'.render.producer = Function.update t.render.producer i .inCall := by
  rcases Concurrent.frameStep_eq h with ⟨hidle, -⟩ | ⟨-, rfl⟩
  · rw [hp] at hidle
    cases hidle
  · simp only [Render.renderStep, hp]
    exact ⟨trivial, trivial⟩

/-- How a call of `RataRenderProc` goes on. -/
theorem callerStep_cases {i : ι} {w w' : Control.RenderEvents.State ι}
    (h : callerStep i w = some w') : ∃ next, w'.callers = Function.update w.callers i next ∧
      ((∃ c, w.callers i = .bufSet c ∧ next = .eventSet ∧ w'.stored = w.stored ++ [c]) ∨
        (stores (w.callers i) = false ∧ w'.stored = w.stored ∧
          ∀ p : Producer (Content T), Beside A p (w.callers i) → Beside A p next)) := by
  unfold Control.RenderEvents.callerStep at h
  cases hc : w.callers i with
  | idle => simp [hc] at h
  | storing c =>
      simp only [hc, Option.ite_none_right_eq_some, Option.some.injEq] at h
      rcases h with ⟨-, rfl⟩
      exact ⟨.entered c, rfl, .inr ⟨rfl, rfl, fun p hp => hp⟩⟩
  | entered c =>
      simp only [hc, Option.some.injEq] at h
      cases h
      exact ⟨.bufSet c, rfl, .inr ⟨rfl, rfl, fun p hp => hp⟩⟩
  | bufSet c =>
      simp only [hc, Option.some.injEq] at h
      cases h
      exact ⟨.eventSet, rfl, .inl ⟨c, rfl, rfl, rfl⟩⟩
  | eventSet =>
      simp only [hc, Option.some.injEq] at h
      cases h
      exact ⟨.posting, rfl, .inr ⟨rfl, rfl, fun p hp => hp⟩⟩
  | posting =>
      simp only [hc, ← apply_ite some, Option.some.injEq] at h
      subst h
      refine ⟨.idle, ?_, .inr ⟨rfl, ?_, fun _ _ => trivial⟩⟩ <;> split <;> rfl

theorem sessionStep_linked {a : Concurrent.Label ι} (h : sessionStep A a s = some s')
    (hs : Linked A s) : Linked A s' := by
  cases a with
  | work i w =>
      rcases Option.map_eq_some_iff.1 h with ⟨session, hstep, rfl⟩
      rcases Concurrent.workStep_eq hstep with ⟨-, -, rfl⟩
      exact ⟨hs.delivered, hs.beside⟩
  | render i =>
      simp only [sessionStep, Option.ite_none_right_eq_some] at h
      rcases h with ⟨⟨hdraw, hidle⟩, h⟩
      rcases Option.map_eq_some_iff.1 h with ⟨session, hstep, rfl⟩
      rcases frameStep_before hstep hdraw with ⟨hreceived, hothers⟩
      refine ⟨?_, beside_of_others hs.beside hothers (fun _ _ => rfl) ?_⟩
      · rw [hreceived]
        exact hs.delivered
      · rw [hidle]
        trivial

theorem renderStep_linked {i : ι} {c : Call} (h : renderStep A i c s = some s')
    (hs : Linked A s) : Linked A s' := by
  unfold renderStep at h
  split at h
  · next f hf =>
      simp only [Option.ite_none_right_eq_some] at h
      rcases h with ⟨hof, h⟩
      rcases Option.map_eq_some_iff.1 h with ⟨window, hcall, rfl⟩
      unfold Control.RenderEvents.call at hcall
      split at hcall
      · cases hcall
        refine ⟨hs.delivered, beside_of_others hs.beside (fun _ _ => rfl)
          (fun j hj => Function.update_of_ne hj _ _) ?_⟩
        simp only [Control.RenderEvents.State.at', Function.update_self]
        exact ⟨f, toDraw_eq_some hf, hof⟩
      · cases hcall
  · cases h

theorem callbackStep_linked {i : ι} (h : callbackStep A i s = some s') (hs : Linked A s) :
    Linked A s' := by
  rcases Option.bind_eq_some_iff.1 h with ⟨window, hcaller, h⟩
  have hbeside := hs.beside i
  rcases callerStep_cases (A := A) hcaller with
    ⟨next, hcallers, ⟨c, hc, rfl, hstored⟩ | ⟨hc, hstored, hnext⟩⟩
  · -- the event is stored, and with it the frame is delivered
    simp only [hc, stores, if_true] at h
    rcases Option.map_eq_some_iff.1 h with ⟨session, hstep, rfl⟩
    rw [hc] at hbeside
    rcases hbeside with ⟨f, hp, hdrawn⟩
    rcases frameStep_delivers hstep hp with ⟨hreceived, hproducer⟩
    refine ⟨?_, ?_⟩
    · simp only [hreceived, hstored]
      exact List.rel_append hs.delivered (.cons hdrawn .nil)
    · simp only [hproducer, hcallers]
      refine beside_of_others hs.beside (fun j hj => Function.update_of_ne hj _ _)
        (fun j hj => Function.update_of_ne hj _ _) ?_
      simp only [Function.update_self]
      rfl
  · simp only [hc, Bool.false_eq_true, if_false, Option.some.injEq] at h
    cases h
    refine ⟨?_, ?_⟩
    · rw [hstored]
      exact hs.delivered
    · simp only [hcallers]
      refine beside_of_others hs.beside (fun _ _ => rfl)
        (fun j hj => Function.update_of_ne hj _ _) ?_
      rw [Function.update_self]
      exact hnext _ hbeside

theorem windowStep_linked {a : Control.RenderEvents.Label ι} (h : windowStep A a s = some s')
    (hs : Linked A s) : Linked A s' := by
  have hsame : ∀ window : Control.RenderEvents.State ι,
      window.stored = s.window.stored ∧ window.callers = s.window.callers →
        Linked A { s with window := window } := by
    rintro window ⟨hstored, hcallers⟩
    refine ⟨?_, ?_⟩
    · rw [hstored]
      exact hs.delivered
    · rw [hcallers]
      exact hs.beside
  cases a with
  | call i c => cases h
  | caller i => exact callbackStep_linked h hs
  | ui =>
      rcases Option.map_eq_some_iff.1 h with ⟨window, hstep, rfl⟩
      exact hsame window (Screen.uiStep_stored hstep)
  | createHandle | destroyHandle =>
      rcases Option.map_eq_some_iff.1 h with ⟨window, hstep, rfl⟩
      exact hsame window (Screen.handleStep_stored hstep)

theorem step_linked {a : Label ι} (h : step A a s = some s') (hs : Linked A s) :
    Linked A s' := by
  cases a with
  | session a => exact sessionStep_linked h hs
  | render i c => exact renderStep_linked h hs
  | window a => exact windowStep_linked h hs

theorem reachable_linked {C : Lts.StepCond (State ι T) (Label ι)}
    (h : (machine ι A cols rows scrollback).Reachable C s) : Linked A s := by
  refine Lts.Machine.init_invariant (Linked A) ?_ ?_ h
  · rintro s rfl
    exact created_linked
  · exact fun a s s' _ hstep hs => step_linked hstep hs

/-! ## The two machines -/

/-- A step is one of the session, or leaves it alone. -/
theorem step_session {a : Label ι} (h : step A a s = some s') :
    s'.session = s.session ∨ ∃ b, Concurrent.step A b s.session = some s'.session ∧
      (InOrder a s → Concurrent.InOrder b s.session) := by
  cases a with
  | session a =>
      right
      cases a with
      | work i w =>
          rcases Option.map_eq_some_iff.1 h with ⟨session, hstep, rfl⟩
          exact ⟨_, hstep, fun _ => trivial⟩
      | render i =>
          simp only [step, sessionStep, Option.ite_none_right_eq_some] at h
          rcases h with ⟨⟨hdraw, -⟩, h⟩
          rcases Option.map_eq_some_iff.1 h with ⟨session, hstep, rfl⟩
          refine ⟨_, hstep, fun _ => ?_⟩
          -- no frame is delivered
          simp only [Concurrent.InOrder, NoOvertake]
          split
          · next hp =>
              rw [hp] at hdraw
              cases hdraw
          · trivial
  | render i c =>
      left
      simp only [step, renderStep] at h
      split at h
      · simp only [Option.ite_none_right_eq_some] at h
        rcases Option.map_eq_some_iff.1 h.2 with ⟨window, -, rfl⟩
        rfl
      · cases h
  | window a =>
      cases a with
      | call i c => cases h
      | caller i =>
          rcases Option.bind_eq_some_iff.1 h with ⟨window, -, h⟩
          split at h
          · next hstores =>
              rcases Option.map_eq_some_iff.1 h with ⟨session, hstep, rfl⟩
              exact .inr ⟨.render i, hstep, fun horder => horder hstores⟩
          · cases h
            exact .inl rfl
      | ui | createHandle | destroyHandle =>
          rcases Option.map_eq_some_iff.1 h with ⟨window, -, rfl⟩
          exact .inl rfl

/-- A step is one of the window, or leaves it alone. -/
theorem step_window {a : Label ι} (h : step A a s = some s') :
    s'.window = s.window ∨ ∃ b, Control.RenderEvents.step b s.window = some s'.window := by
  cases a with
  | session a =>
      left
      cases a with
      | work i w =>
          rcases Option.map_eq_some_iff.1 h with ⟨session, -, rfl⟩
          rfl
      | render i =>
          simp only [step, sessionStep, Option.ite_none_right_eq_some] at h
          rcases Option.map_eq_some_iff.1 h.2 with ⟨session, -, rfl⟩
          rfl
  | render i c =>
      right
      simp only [step, renderStep] at h
      split at h
      · simp only [Option.ite_none_right_eq_some] at h
        rcases Option.map_eq_some_iff.1 h.2 with ⟨window, hcall, rfl⟩
        exact ⟨.call i (some c), hcall⟩
      · cases h
  | window a =>
      right
      cases a with
      | call i c => cases h
      | caller i =>
          rcases Option.bind_eq_some_iff.1 h with ⟨window, hcaller, h⟩
          split at h
          · rcases Option.map_eq_some_iff.1 h with ⟨session, -, rfl⟩
            exact ⟨.caller i, hcaller⟩
          · cases h
            exact ⟨.caller i, hcaller⟩
      | ui | createHandle | destroyHandle =>
          rcases Option.map_eq_some_iff.1 h with ⟨window, hstep, rfl⟩
          exact ⟨_, hstep⟩

theorem reachable_session {C : Lts.StepCond (State ι T) (Label ι)}
    (h : (machine ι A cols rows scrollback).Reachable C s) :
    (Concurrent.machine ι A cols rows scrollback).Reachable (fun _ _ => True) s.session := by
  refine h.map State.session ?_ fun a s s' _ hstep => ?_
  · rintro s rfl
    rfl
  · rcases step_session hstep with hsame | ⟨b, hb, -⟩
    · exact .inl hsame
    · exact .inr ⟨b, trivial, hb⟩

theorem reachable_session_inOrder (h : (machine ι A cols rows scrollback).Reachable InOrder s) :
    (Concurrent.machine ι A cols rows scrollback).Reachable Concurrent.InOrder s.session := by
  refine h.map State.session ?_ fun a s s' horder hstep => ?_
  · rintro s rfl
    rfl
  · rcases step_session hstep with hsame | ⟨b, hb, hkeeps⟩
    · exact .inl hsame
    · exact .inr ⟨b, hkeeps horder, hb⟩

theorem reachable_window {C : Lts.StepCond (State ι T) (Label ι)}
    (h : (machine ι A cols rows scrollback).Reachable C s) :
    (Control.RenderEvents.machine ι).Reachable (fun _ _ => True) s.window := by
  refine h.map State.window ?_ fun a s s' _ hstep => ?_
  · rintro s rfl
    rfl
  · rcases step_window hstep with hsame | ⟨b, hb⟩
    · exact .inl hsame
    · exact .inr ⟨b, trivial, hb⟩

/-! ## The result -/

/-- What the control keeps of a frame is in its view. -/
theorem shown_of_view {t t' : TermHost T} (h : t.view A = t'.view A) :
    shown A t = shown A t' := by
  simp only [TermHost.view, Term.View.mk.injEq] at h
  rcases h with ⟨hcols, hrows, hcells, hx, hy, -, hstyle⟩
  simp only [shown, hcols, hrows, hcells, hx, hy, hstyle]

/-- An event of a frame leaves the control with what the terminal showed. -/
theorem Drawn.shown {f : Frame (Content T)} {c : Call} (h : Drawn A f c)
    {last : Control.RenderEvents.Last} (hlast : Describes c last) :
    last = shown A f.snap.host :=
  Draws.describes ⟨f.snap.backend, h⟩ hlast

theorem exists_of_forall₂ {α β : Type} {r : α → β → Prop} {l : List α} {l' : List β}
    (h : List.Forall₂ r l l') {b : β} (hb : b ∈ l') : ∃ a ∈ l, r a b := by
  induction h with
  | nil => cases hb
  | cons hab _ ih =>
      rcases List.mem_cons.1 hb with rfl | hb
      · exact ⟨_, List.mem_cons_self, hab⟩
      · rcases ih hb with ⟨a, ha, hr⟩
        exact ⟨a, List.mem_cons_of_mem _ ha, hr⟩

/-- The control shows the terminal as it is after the first operations, and none behind them
renders. -/
def ScreenShown (A : Alacritty T R) (cols rows : UInt16) (scrollback : Nat) (s : State ι T) :
    Prop :=
  ∃ first later, s.session.content.works = first ++ later ∧
    (∀ w ∈ later, w.renders = false) ∧
    (first ≠ [] → s.window.last = shown A (oneByOne A cols rows scrollback first).host)

omit [DecidableEq ι] in
/-- What the control keeps between two messages is of an event that was stored. -/
theorem last_stored {w : Control.RenderEvents.State ι} (hs : Sound w)
    (hunshown : w.handler.unshown = none) (hreceived : w.received ≠ []) :
    ∃ c ∈ w.stored, Describes c w.last := by
  rcases hs.filled with ⟨m, hm, hfilled⟩
  rcases Option.isSome_iff_exists.1 (List.getLast?_isSome.2 hreceived) with ⟨r, hr⟩
  rcases hfilled.shown hunshown r hr with ⟨before, hlast⟩
  have hmem := List.mem_of_getLast? hr
  rw [← hfilled.taken] at hmem
  rcases List.mem_map.1 hmem with ⟨c, hc, rfl⟩
  have hstored := hm.sublist.subset hc
  rw [hfilled.put] at hstored
  refine ⟨c, hstored, ?_⟩
  rw [hlast]
  exact c.handleRenderMessage_describes before

omit [DecidableEq ι] in
theorem Linked.last_shown (hs : Linked A s)
    (hsession : Concurrent.Inv A cols rows scrollback s.session) (hwindow : Sound s.window)
    (hunshown : s.window.handler.unshown = none) (hreceived : s.window.received ≠ []) :
    ∃ first, first <+: s.session.content.works ∧
      s.window.last = shown A (oneByOne A cols rows scrollback first).host := by
  rcases last_stored hwindow hunshown hreceived with ⟨c, hc, hdescribes⟩
  rcases exists_of_forall₂ hs.delivered hc with ⟨f, hf, hdrawn⟩
  rcases hsession.taken f (hsession.received f hf) with ⟨halike, hprefix, -⟩
  refine ⟨f.snap.works, hprefix, ?_⟩
  rw [hdrawn.shown hdescribes]
  exact shown_of_view (Concurrent.view_of_bare halike)

omit [DecidableEq ι] in
theorem Linked.screenShown (hs : Linked A s) (hwindow : Sound s.window)
    (hframe : LastFrame A cols rows scrollback s.session) (hrest : s.AtRest)
    (hwoken : s.window.woken = true) : ScreenShown A cols rows scrollback s := by
  rcases hframe.shows with ⟨first, later, hworks, hnone, hempty, hview⟩
  refine ⟨first, later, hworks, hnone, fun hfirst => ?_⟩
  cases hlast : s.session.render.received.getLast? with
  | none => exact absurd (hempty.2 (List.getLast?_eq_none_iff.1 hlast)) hfirst
  | some f =>
      -- the frame delivered last is the event stored last
      rcases Screen.getLast?_of_forall₂ hs.delivered hlast with ⟨c, hstored, hdrawn⟩
      have hdescribes := (Screen.window_shows hwindow hrest.window hwoken hstored).2
      rw [hdrawn.shown hdescribes]
      exact shown_of_view (hview f hlast)

/-- Whatever the order of the steps: between two messages the control shows what a session
in one thread has after some of the operations. If no frame is stored after a later one, it
shows at rest what the last operation that renders has left, or later ones. -/
theorem threads_shown
    (h : (machine ι A cols rows scrollback).Reachable (fun _ _ => True) s) :
    (s.window.handler.unshown = none → s.window.received ≠ [] →
      ∃ first, first <+: s.session.content.works ∧
        s.window.last = shown A (oneByOne A cols rows scrollback first).host) ∧
      ((machine ι A cols rows scrollback).Reachable InOrder s → s.AtRest →
        s.window.woken = true → ScreenShown A cols rows scrollback s) := by
  have hlinked := reachable_linked h
  have hsession := Concurrent.reachable_inv (reachable_session h)
  have hwindow := Control.RenderEvents.sound_reachable (reachable_window h)
  refine ⟨hlinked.last_shown hsession hwindow, fun horder hrest hwoken => ?_⟩
  have hrender := Concurrent.reachable_render_inv (reachable_session_inOrder horder)
  exact hlinked.screenShown hwindow (hsession.lastFrame hrender hrest.session) hrest hwoken

/-! ## A run -/

/-- The event of a frame of this content. -/
def drawing (c : Content Term.Plain) : Call := Screen.renderCall plain c.host c.backend

def scrolledBack : Content Term.Plain :=
  ((created plain 4 2 10 : State Bool Term.Plain).session.content.work plain
    (.advance Concurrent.scrolledOut)).work plain (.call (.scroll 1))

/-- The pump (`false`) parses the output, and a host thread (`true`) scrolls up to it before
the frame of the pump is taken; both are in `RataRenderProc` at once. -/
def interleaved : List (Label Bool) :=
  [.window .createHandle, .session (.work false (.advance Concurrent.scrolledOut)),
    .session (.work true (.call (.scroll 1)))] ++
  [.session (.render true), .session (.render true), .session (.render false),
    .session (.render false)] ++
  [.render true (drawing scrolledBack), .window (.caller true),
    .render false (drawing (scrolledBack.snapshot plain))] ++
  List.replicate 4 (.window (.caller true)) ++ List.replicate 5 (.window (.caller false)) ++
  [.session (.render true), .session (.render false)] ++ List.replicate 12 (.window .ui)

theorem threads_shown_interleaved :
    ∃ s, (machine Bool plain 4 2 10).run (created plain 4 2 10) interleaved = some s ∧
      s.session.content.works = [.advance Concurrent.scrolledOut, .call (.scroll 1)] ∧
      ScreenShown plain 4 2 10 s := by
  have hmeets : (machine Bool plain 4 2 10).Meets InOrder (created plain 4 2 10)
      interleaved := by
    decide +kernel
  have htest : ((machine Bool plain 4 2 10).run (created plain 4 2 10) interleaved).any
      (fun s => decide (s.AtRest ∧ s.window.woken = true ∧
        s.session.content.works = [.advance Concurrent.scrolledOut, .call (.scroll 1)])) =
        true := by
    decide +kernel
  rcases Lts.Machine.exists_reachable _ interleaved rfl hmeets htest with ⟨s, hrun, horder, hs⟩
  rcases of_decide_eq_true hs with ⟨hrest, hwoken, hworks⟩
  have hshown := threads_shown (horder.mono fun _ _ _ => trivial)
  exact ⟨s, hrun, hworks, hshown.2 horder hrest hwoken⟩

end RataShell.Threads
