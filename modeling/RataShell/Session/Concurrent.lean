import RataShell.Session.Render
import RataShell.Term.Freshness

/-!
# Operations of several threads

Any number of threads call the operations of a session while the pump feeds it. An operation
changes the terminal under its lock, and takes its snapshot later, under the locks of the
terminal and the backend; others come in between. `Term.Session` does the operations one
after the other, each with its frame.

* `oneByOne`: such a session, for the operations in the order in which they had the lock.
* `concurrent_linear`: the terminal is that of this session, each frame shows it as it was
  after some of the operations, and the last frame as it was after all that render.
-/

namespace RataShell.Concurrent

open Render (NoOvertake Producer renderStep)
open Term (Alacritty HostBackend Op Plain RenderSnapshot Session TermHost plain)

variable {ι T R : Type}

/-! ## Operations -/

/-- What is done under the lock of the terminal: a buffer is parsed, an operation, nothing
before a frame is asked for, or the mode is read for a key. -/
inductive Work where
  | advance (bytes : List UInt8)
  | call (op : Op)
  | requestRender
  | sendKey
deriving DecidableEq, Repr

namespace Work

variable (A : Alacritty T R)

/-- What it does to the terminal. -/
def host (w : Work) (t : TermHost T) : TermHost T :=
  match w with
  | advance bytes => t.advance A bytes
  | call op => op.host A t
  | requestRender => t
  | sendKey => t.snapshot A

/-- A snapshot is to be taken. -/
def renders : Work → Bool
  | advance _ | requestRender => true
  | call op => op.renders
  | sendKey => false

/-- The pump parses all buffers that are there before it takes a snapshot. -/
def more : Work → Bool
  | advance _ => true
  | _ => false

/-- The same in one step with its frame. -/
def atOnce (w : Work) (σ : Session T) : Session T :=
  match w with
  | advance bytes => σ.step A (.output [bytes])
  | call op => σ.step A (.call op)
  | requestRender => σ.step A .requestRender
  | sendKey => σ.step A .sendKey

end Work

/-! ## The session -/

/-- What the locks of the terminal and the backend protect, and what has been done under the
first, in this order. -/
structure Content (T : Type) where
  host : TermHost T
  backend : HostBackend
  works : List Work

/-- The content and the frames on their way, and who has yet to take a snapshot. -/
structure State (ι T : Type) where
  render : Render.State ι (Content T)
  due : ι → Bool

/-- An activation has the lock of the terminal, or goes on with `request_render` (the pump
with its own snapshot). -/
inductive Label (ι : Type) where
  | work (i : ι) (w : Work)
  | render (i : ι)
deriving DecidableEq, Repr

namespace Content

variable (A : Alacritty T R)

/-- The snapshot that `HostBackend::snapshot` returns. -/
def frame (c : Content T) : RenderSnapshot := c.backend.render A c.host

/-- What it leaves. -/
def snapshot (c : Content T) : Content T :=
  { c with host := c.host.snapshot A, backend := HostBackend.remember A c.host }

def work (w : Work) (c : Content T) : Content T :=
  { c with host := w.host A c.host, works := c.works ++ [w] }

end Content

namespace State

def content (s : State ι T) : Content T := s.render.term

/-- Every activation has returned. -/
def AtRest (s : State ι T) : Prop := ∀ i, s.due i = false ∧ s.render.producer i = .idle

end State

/-- The activation has returned. -/
def returned {τ : Type} : Producer τ → Bool
  | .idle => true
  | _ => false

instance {τ : Type} (p : Producer τ) : Decidable (p = .idle) :=
  decidable_of_iff (returned p = true) (by cases p <;> simp [returned])

instance [Fintype ι] (s : State ι T) : Decidable s.AtRest :=
  inferInstanceAs (Decidable (∀ i, s.due i = false ∧ s.render.producer i = .idle))

variable [DecidableEq ι] (A : Alacritty T R)

/-- The section under the lock of the terminal. -/
def workStep (i : ι) (w : Work) (s : State ι T) : Option (State ι T) :=
  match s.render.producer i with
  | .idle =>
      if s.due i = true ∧ w.more = false then none
      else some
        { render := { s.render with term := s.content.work A w }
          due := Function.update s.due i w.renders }
  | _ => none

/-- The snapshot that is due, or what follows on it. -/
def frameStep (i : ι) (s : State ι T) : Option (State ι T) :=
  match s.render.producer i with
  | .idle =>
      if s.due i = true then some
        { render := { renderStep i s.render with term := s.content.snapshot A }
          due := Function.update s.due i false }
      else none
  | _ => some { s with render := renderStep i s.render }

def step (a : Label ι) (s : State ι T) : Option (State ι T) :=
  match a with
  | .work i w => workStep A i w s
  | .render i => frameStep A i s

/-- A new session whose host has registered `on_render`. -/
def created (cols rows : UInt16) (scrollback : Nat) : State ι T where
  render := Render.init ⟨.new A cols rows scrollback, .new, []⟩ true
  due := fun _ => false

def machine (ι : Type) [DecidableEq ι] (A : Alacritty T R) (cols rows : UInt16)
    (scrollback : Nat) : Lts.Machine (State ι T) (Label ι) where
  Init s := s = created A cols rows scrollback
  step := step A

/-- No frame is delivered while an older one is on its way. -/
def InOrder : Lts.StepCond (State ι T) (Label ι) := fun a s =>
  match a with
  | .work _ _ => True
  | .render i => NoOvertake (.render i) s.render

instance [Fintype ι] (a : Label ι) (s : State ι T) : Decidable (InOrder a s) :=
  match a with
  | .work _ _ => isTrue trivial
  | .render i => inferInstanceAs (Decidable (NoOvertake (.render i) s.render))

/-- The same session, with its operations one after the other. -/
def oneByOne (cols rows : UInt16) (scrollback : Nat) (works : List Work) : Session T :=
  works.foldl (fun σ w => w.atOnce A σ)
    ((Term.Session.new A cols rows scrollback).step A (.setCallbacks true))

/-! ## Terminals but for their hyperlinks -/

/-- A terminal without its table of hyperlinks, which only snapshots fill. -/
def bare (t : TermHost T) : TermHost T := { t with hyperlinks := fun _ => none }

variable {A}

theorem view_bare (t : TermHost T) : (bare t).view A = t.view A :=
  TermHost.view_of_term rfl rfl

theorem view_of_bare {t t' : TermHost T} (h : bare t = bare t') : t.view A = t'.view A := by
  rw [← view_bare t, h, view_bare]

theorem bare_setPattern (pattern : String) (t : TermHost T) :
    bare (t.setPattern pattern) = (bare t).setPattern pattern := by
  unfold TermHost.setPattern
  split <;> rename_i h <;> simp [bare, h]

theorem bare_showLine (line : Int) (t : TermHost T) :
    bare (t.showLine A line) = (bare t).showLine A line := by
  simp only [TermHost.showLine, apply_ite bare]
  rfl

theorem bare_searchNext (pattern : String) (forward : Bool) (t : TermHost T) :
    bare (t.searchNext A pattern forward).1 = ((bare t).searchNext A pattern forward).1 := by
  have hpattern := bare_setPattern pattern t
  have hfind : ∀ regex, ((bare t).setPattern pattern).find A regex forward =
      (t.setPattern pattern).find A regex forward := by
    intro regex
    rw [← hpattern]
    rfl
  unfold TermHost.searchNext
  split
  · rfl
  · cases A.regex pattern with
    | none => rfl
    | some regex =>
        simp only [hfind]
        cases (t.setPattern pattern).find A regex forward with
        | none =>
            simp only [← hpattern]
            rfl
        | some m =>
            simp only [← hpattern]
            exact bare_showLine m.start.line _

/-- No operation reads the hyperlinks. -/
theorem bare_op (op : Op) (t : TermHost T) : bare (op.host A t) = op.host A (bare t) := by
  cases op with
  | searchNext pattern forward => exact bare_searchNext pattern forward t
  | viMotion kind =>
      show bare (t.viMotion A kind) = (bare t).viMotion A kind
      unfold TermHost.viMotion
      split <;> rfl
  | _ => rfl

theorem bare_work (w : Work) {t t' : TermHost T} (h : bare t = bare t') :
    bare (w.host A t) = bare (w.host A t') := by
  cases w with
  | advance bytes =>
      have hadvance : ∀ t : TermHost T, bare (t.advance A bytes) = (bare t).advance A bytes :=
        fun _ => rfl
      show bare (t.advance A bytes) = bare (t'.advance A bytes)
      rw [hadvance, hadvance, h]
  | call op =>
      show bare (op.host A t) = bare (op.host A t')
      rw [bare_op, bare_op, h]
  | requestRender => exact h
  | sendKey => exact h

/-- What an operation does at once it does to the terminal under the lock. -/
theorem bare_atOnce (w : Work) (σ : Session T) :
    bare (w.atOnce A σ).host = bare (w.host A σ.host) := by
  cases w with
  | call op =>
      show bare (σ.call A op).host = bare (op.host A σ.host)
      unfold Term.Session.call
      split <;> rfl
  | _ => rfl

/-- An operation that renders leaves the session with a fresh frame. -/
theorem atOnce_fresh {w : Work} (hw : w.renders = true) {σ : Session T}
    (hon : σ.onRender = true) : (w.atOnce A σ).Fresh A := by
  cases w with
  | advance bytes => exact Term.Session.requestRender_fresh hon
  | call op =>
      have hop : op.renders = true := hw
      show (σ.call A op).Fresh A
      simp only [Term.Session.call, hop, if_true]
      exact Term.Session.requestRender_fresh hon
  | requestRender => exact Term.Session.requestRender_fresh hon
  | sendKey => cases hw

/-! ## Steps -/

variable {cols rows : UInt16} {scrollback : Nat} {s s' : State ι T}

theorem workStep_eq {i : ι} {w : Work} (h : workStep A i w s = some s') :
    s.render.producer i = .idle ∧ (s.due i = true → w.renders = true) ∧
      s' = { render := { s.render with term := s.content.work A w }
             due := Function.update s.due i w.renders } := by
  unfold workStep at h
  split at h
  · next hp =>
      simp only [Option.ite_none_left_eq_some, Option.some.injEq] at h
      rcases h with ⟨hmore, rfl⟩
      refine ⟨hp, fun hdue => ?_, rfl⟩
      cases w <;> first | rfl | exact absurd ⟨hdue, rfl⟩ hmore
  · cases h

theorem frameStep_eq {i : ι} (h : frameStep A i s = some s') :
    (s.render.producer i = .idle ∧ s.due i = true ∧
      s' = { render := { renderStep i s.render with term := s.content.snapshot A }
             due := Function.update s.due i false }) ∨
      (s.render.producer i ≠ .idle ∧ s' = { s with render := renderStep i s.render }) := by
  unfold frameStep at h
  split at h
  · next hp =>
      simp only [Option.ite_none_right_eq_some, Option.some.injEq] at h
      exact .inl ⟨hp, h.1, h.2.symm⟩
  · next hp =>
      cases h
      exact .inr ⟨hp, rfl⟩

/-- A frame that has been taken goes on its way, is received or is dropped. -/
theorem renderStep_going {τ : Type} {i : ι} {r : Render.State ι τ} (hp : r.producer i ≠ .idle) :
    (renderStep i r).term = r.term ∧ (renderStep i r).taken = r.taken ∧
      (renderStep i r).on_render = r.on_render ∧
      (∀ j, ∀ f ∈ ((renderStep i r).producer j).frame, ∃ k, f ∈ (r.producer k).frame) ∧
      ∀ f ∈ (renderStep i r).received, f ∈ r.received ∨ ∃ k, f ∈ (r.producer k).frame := by
  have hothers : ∀ {q : Producer τ}, (∀ f ∈ q.frame, f ∈ (r.producer i).frame) →
      ∀ j, ∀ f ∈ (Function.update r.producer i q j).frame, ∃ k, f ∈ (r.producer k).frame := by
    intro q hq j f hf
    rcases Render.frame_update hf with ⟨-, hf⟩ | ⟨-, hf⟩
    · exact ⟨i, hq f hf⟩
    · exact ⟨j, hf⟩
  cases hi : r.producer i with
  | idle => exact absurd hi hp
  | snapped f =>
      have hstep : renderStep i r =
          { r with
            producer := Function.update r.producer i (if r.on_render then .cloned f else .idle) } :=
        by simp only [renderStep, hi]
      rw [hstep]
      refine ⟨rfl, rfl, rfl, hothers fun g hg => ?_, fun f hf => .inl hf⟩
      rw [hi]
      split at hg
      · exact hg
      · cases hg
  | cloned f =>
      have hstep : renderStep i r = { r with
          received := r.received ++ [f]
          producer := Function.update r.producer i .inCall } := by
        simp only [renderStep, hi]
      rw [hstep]
      refine ⟨rfl, rfl, rfl, hothers fun g hg => ?_, fun g hg => ?_⟩
      · cases hg
      · rcases List.mem_append.1 hg with hg | hg
        · exact .inl hg
        · refine .inr ⟨i, ?_⟩
          rw [hi, List.mem_singleton.1 hg]
          rfl
  | inCall =>
      have hstep : renderStep i r =
          { r with producer := Function.update r.producer i .idle } := by
        simp only [renderStep, hi]
      rw [hstep]
      refine ⟨rfl, rfl, rfl, hothers fun g hg => ?_, fun f hf => .inl hf⟩
      cases hg

/-! ## What every run keeps -/

/-- The terminal is that of a session which has done the same one by one. -/
def Content.Alike (A : Alacritty T R) (cols rows : UInt16) (scrollback : Nat)
    (c : Content T) : Prop :=
  bare c.host = bare (oneByOne A cols rows scrollback c.works).host

/-- What had been done when the last snapshot was taken. -/
def State.lastTaken (s : State ι T) : List Work :=
  (s.render.taken.getLast?.map fun f => f.snap.works).getD []

structure Inv (A : Alacritty T R) (cols rows : UInt16) (scrollback : Nat) (s : State ι T) :
    Prop where
  now : s.content.Alike A cols rows scrollback
  taken : ∀ f ∈ s.render.taken, f.snap.Alike A cols rows scrollback ∧
    f.snap.works <+: s.content.works ∧ f.snap.works ≠ []
  pending : ∀ i, ∀ f ∈ (s.render.producer i).frame, f ∈ s.render.taken
  received : ∀ f ∈ s.render.received, f ∈ s.render.taken
  registered : s.render.on_render = true
  due : ∀ i, s.due i = true → s.content.works ≠ []
  later : ∃ later, s.content.works = s.lastTaken ++ later ∧
    ((∃ w ∈ later, w.renders = true) → ∃ i, s.due i = true)

theorem oneByOne_concat (works : List Work) (w : Work) :
    oneByOne A cols rows scrollback (works ++ [w]) =
      w.atOnce A (oneByOne A cols rows scrollback works) := by
  rw [oneByOne, List.foldl_append]
  rfl

theorem work_alike {c : Content T} (hc : c.Alike A cols rows scrollback) (w : Work) :
    (c.work A w).Alike A cols rows scrollback := by
  rw [Content.Alike, Content.work, oneByOne_concat, bare_atOnce]
  exact bare_work w hc

omit [DecidableEq ι] in
theorem created_inv : Inv A cols rows scrollback (created A cols rows scrollback : State ι T) where
  now := rfl
  taken f hf := by cases hf
  pending i f hf := by cases hf
  received f hf := by cases hf
  registered := rfl
  due i h := by cases h
  later := ⟨[], rfl, by simp⟩

theorem workStep_inv {i : ι} {w : Work} (h : workStep A i w s = some s')
    (hs : Inv A cols rows scrollback s) : Inv A cols rows scrollback s' := by
  rcases workStep_eq h with ⟨-, hdue, rfl⟩
  refine ⟨work_alike hs.now w, fun f hf => ?_, hs.pending, hs.received, hs.registered, ?_, ?_⟩
  · rcases hs.taken f hf with ⟨halike, hprefix, hne⟩
    exact ⟨halike, hprefix.trans (List.prefix_append _ _), hne⟩
  · intro j _
    exact List.append_ne_nil_of_right_ne_nil _ (List.cons_ne_nil w [])
  · rcases hs.later with ⟨later, hworks, hrenders⟩
    refine ⟨later ++ [w], ?_, ?_⟩
    · show s.content.works ++ [w] = s.lastTaken ++ (later ++ [w])
      rw [hworks, List.append_assoc]
    · rintro ⟨v, hv, hvrenders⟩
      rcases List.mem_append.1 hv with hv | hv
      · -- whoever was to take a snapshot before still is
        rcases hrenders ⟨v, hv, hvrenders⟩ with ⟨j, hj⟩
        by_cases hji : j = i
        · subst hji
          exact ⟨j, by simpa using hdue hj⟩
        · exact ⟨j, by simpa [hji] using hj⟩
      · rw [List.mem_singleton.1 hv] at hvrenders
        exact ⟨i, by simpa using hvrenders⟩

theorem frameStep_inv {i : ι} (h : frameStep A i s = some s')
    (hs : Inv A cols rows scrollback s) : Inv A cols rows scrollback s' := by
  rcases frameStep_eq h with ⟨hp, hdue, rfl⟩ | ⟨hp, rfl⟩
  · simp only [renderStep, hp]
    have hne := hs.due i hdue
    refine ⟨hs.now, ?_, ?_, fun f hf => ?_, hs.registered, fun _ _ => hne, ⟨[], ?_, by simp⟩⟩
    · intro f hf
      rcases List.mem_append.1 hf with hf | hf
      · exact hs.taken f hf
      · rw [List.mem_singleton.1 hf]
        exact ⟨hs.now, List.prefix_rfl, hne⟩
    · intro j f hf
      rcases Render.frame_update hf with ⟨-, hf⟩ | ⟨-, hf⟩
      · cases hf
        exact List.mem_append_right _ (List.mem_singleton_self _)
      · exact List.mem_append_left _ (hs.pending j f hf)
    · exact List.mem_append_left _ (hs.received f hf)
    · simp [State.lastTaken, State.content, Content.snapshot]
  · rcases renderStep_going hp with ⟨hterm, htaken, hon, hpending, hreceived⟩
    refine ⟨?_, ?_, ?_, ?_, ?_, ?_, ?_⟩
    · simp only [State.content, hterm]
      exact hs.now
    · simp only [State.content, hterm, htaken]
      exact hs.taken
    · intro j f hf
      rcases hpending j f hf with ⟨k, hk⟩
      simp only [htaken]
      exact hs.pending k f hk
    · intro f hf
      simp only [htaken]
      rcases hreceived f hf with hf | ⟨k, hk⟩
      · exact hs.received f hf
      · exact hs.pending k f hk
    · exact hon.trans hs.registered
    · simp only [State.content, hterm]
      exact hs.due
    · simp only [State.content, State.lastTaken, hterm, htaken]
      exact hs.later

theorem step_inv {a : Label ι} (h : step A a s = some s')
    (hs : Inv A cols rows scrollback s) : Inv A cols rows scrollback s' := by
  cases a with
  | work i w => exact workStep_inv h hs
  | render i => exact frameStep_inv h hs

theorem reachable_inv {C : Lts.StepCond (State ι T) (Label ι)}
    (h : (machine ι A cols rows scrollback).Reachable C s) : Inv A cols rows scrollback s := by
  refine Lts.Machine.init_invariant (Inv A cols rows scrollback) ?_ ?_ h
  · rintro s rfl
    exact created_inv
  · intro a s s' _ hstep hs
    exact step_inv hstep hs

/-! ## Runs in order -/

/-- The frames are those of a session whose activations keep the order. -/
theorem step_render_inv {a : Label ι} (h : step A a s = some s') (horder : InOrder a s)
    (hon : s.render.on_render = true) (hs : Render.Inv s.render) : Render.Inv s'.render := by
  have hchange : ∀ {r : Render.State ι (Content T)} (c : Content T), r.on_render = true →
      Render.Inv r → Render.Inv { r with term := c } := fun c hr hinv =>
    Render.step_inv (a := .change c) rfl hr trivial hinv
  cases a with
  | work i w =>
      rcases workStep_eq h with ⟨-, -, rfl⟩
      exact hchange _ hon hs
  | render i =>
      have hgo : Render.Inv (renderStep i s.render) :=
        Render.step_inv (a := .render i) rfl hon horder hs
      rcases frameStep_eq h with ⟨hp, -, rfl⟩ | ⟨-, rfl⟩
      · refine hchange _ ?_ hgo
        simp only [renderStep, hp]
        exact hon
      · exact hgo

theorem reachable_render_inv (h : (machine ι A cols rows scrollback).Reachable InOrder s) :
    Render.Inv s.render := by
  have hboth : Inv A cols rows scrollback s ∧ Render.Inv s.render := by
    refine Lts.Machine.init_invariant
      (fun s => Inv A cols rows scrollback s ∧ Render.Inv s.render) ?_ ?_ h
    · rintro s rfl
      exact ⟨created_inv, Render.init_inv _ _⟩
    · rintro a s s' horder hstep ⟨hs, hrender⟩
      exact ⟨step_inv hstep hs, step_render_inv hstep horder hs.registered hrender⟩
  exact hboth.2

/-- A frame shows the terminal of the operations before its snapshot. -/
theorem Content.Alike.view_frame {c : Content T} (hc : c.Alike A cols rows scrollback) :
    (c.frame A).view = (oneByOne A cols rows scrollback c.works).host.view A :=
  view_of_bare hc

theorem oneByOne_onRender (works : List Work) :
    (oneByOne A cols rows scrollback works).onRender = true := by
  induction works using List.reverseRecOn with
  | nil => rfl
  | append_singleton works w ih =>
      rw [oneByOne_concat]
      cases w with
      | call op =>
          show ((oneByOne A cols rows scrollback works).call A op).onRender = true
          unfold Term.Session.call
          split <;> exact ih
      | _ => exact ih

/-- The last frame shows the terminal as it was after the first operations, and none behind
them renders; where one that renders is the last of all, it is the frame of the session that
does the same one by one. -/
structure LastFrame (A : Alacritty T R) (cols rows : UInt16) (scrollback : Nat)
    (s : State ι T) : Prop where
  shows : ∃ first later, s.content.works = first ++ later ∧
    (∀ w ∈ later, w.renders = false) ∧ (first = [] ↔ s.render.received = []) ∧
    ∀ f ∈ s.render.received.getLast?,
      (f.snap.frame A).view = (oneByOne A cols rows scrollback first).host.view A
  refines : ∀ w ∈ s.content.works.getLast?, w.renders = true →
    (s.render.received.getLast?.map fun f => (f.snap.frame A).view) =
      (oneByOne A cols rows scrollback s.content.works).frame.map RenderSnapshot.view

omit [DecidableEq ι] in
theorem Inv.lastFrame (hs : Inv A cols rows scrollback s) (hrender : Render.Inv s.render)
    (hrest : s.AtRest) : LastFrame A cols rows scrollback s := by
  have hlatest := hrender.framesOk.latest fun i => (hrest i).2
  rcases hs.later with ⟨later, hworks, hrenders⟩
  have hnone : ∀ w ∈ later, w.renders = false := by
    intro w hw
    by_contra hwrenders
    rcases hrenders ⟨w, hw, Bool.eq_true_of_not_eq_false hwrenders⟩ with ⟨i, hi⟩
    rw [(hrest i).1] at hi
    cases hi
  have hview : ∀ f ∈ s.render.received.getLast?,
      (f.snap.frame A).view = (oneByOne A cols rows scrollback s.lastTaken).host.view A := by
    intro f hf
    have htaken : s.render.taken.getLast? = some f := hlatest ▸ hf
    rw [State.lastTaken, htaken]
    exact (hs.taken f (List.mem_of_getLast? htaken)).1.view_frame
  have hempty : s.lastTaken = [] ↔ s.render.received = [] := by
    cases htaken : s.render.taken.getLast? with
    | none =>
        rw [htaken] at hlatest
        simp [State.lastTaken, htaken, List.getLast?_eq_none_iff.1 hlatest]
    | some f =>
        have hne := (hs.taken f (List.mem_of_getLast? htaken)).2.2
        rw [htaken] at hlatest
        refine iff_of_false (by simpa [State.lastTaken, htaken] using hne) fun hnil => ?_
        rw [hnil] at hlatest
        cases hlatest
  refine ⟨⟨s.lastTaken, later, hworks, hnone, hempty, hview⟩, fun w hw hwrenders => ?_⟩
  -- the last operation has been shown, so that no other is behind the snapshot
  have hlater : later = [] := by
    rcases List.eq_nil_or_concat' later with hnil | ⟨front, v, rfl⟩
    · exact hnil
    · rw [hworks, ← List.append_assoc, List.getLast?_concat, Option.mem_some_iff] at hw
      rw [← hw, hnone v (by simp)] at hwrenders
      cases hwrenders
  rw [hlater, List.append_nil] at hworks
  rcases List.getLast?_eq_some_iff.1 hw with ⟨front, hfront⟩
  have hfresh : (oneByOne A cols rows scrollback s.content.works).Fresh A := by
    rw [hfront, oneByOne_concat]
    exact atOnce_fresh hwrenders (oneByOne_onRender front)
  cases hreceived : s.render.received.getLast? with
  | none =>
      have hnil := hempty.2 (List.getLast?_eq_none_iff.1 hreceived)
      rw [hworks, hnil] at hfront
      exact absurd hfront (by simp)
  | some f =>
      rw [Option.map_some, hview f hreceived, ← hworks]
      exact hfresh.symm

/-! ## The result -/

/-- Whatever the order of the steps: the terminal is, but for its table of hyperlinks, that
of a session which does the same operations one by one, in the order in which they have had
the lock, and each frame delivered shows it as it was after some of them. If no frame has
overtaken another one, the last one shows, at rest, what the last operation that renders has
left, or later ones. -/
theorem concurrent_linear (h : (machine ι A cols rows scrollback).Reachable (fun _ _ => True) s) :
    bare s.content.host = bare (oneByOne A cols rows scrollback s.content.works).host ∧
      (∀ f ∈ s.render.received, ∃ first, first <+: s.content.works ∧
        (f.snap.frame A).view = (oneByOne A cols rows scrollback first).host.view A) ∧
      ((machine ι A cols rows scrollback).Reachable InOrder s → s.AtRest →
        LastFrame A cols rows scrollback s) := by
  have hs := reachable_inv h
  refine ⟨hs.now, fun f hf => ?_, fun horder hrest => ?_⟩
  · rcases hs.taken f (hs.received f hf) with ⟨halike, hprefix, -⟩
    exact ⟨f.snap.works, hprefix, halike.view_frame⟩
  · exact hs.lastFrame (reachable_render_inv horder) hrest

/-! ## Runs -/

/-- `x` and two line feeds, which move it up into the history. -/
def scrolledOut : List UInt8 := [0x78, 13, 10, 13, 10]

/-- The pump (`false`) parses the output, and a host thread (`true`) scrolls up to it before
the frame of the pump is taken. -/
def interleaved : List (Label Bool) :=
  [.work false (.advance scrolledOut), .work true (.call (.scroll 1)), .render true,
    .render false, .render true, .render true, .render true, .render false, .render false,
    .render false]

/-- The pump has its snapshot, and delivers it after the frame of the scroll. -/
def overtaken : List (Label Bool) :=
  [.work false (.advance scrolledOut), .render false, .work true (.call (.scroll 1)),
    .render true, .render true, .render true, .render true, .render false, .render false,
    .render false]

theorem concurrent_linear_interleaved :
    ∃ s, (machine Bool plain 10 2 100).run (created plain 10 2 100) interleaved = some s ∧
      s.AtRest ∧ bare s.content.host =
        bare (oneByOne plain 10 2 100 [.advance scrolledOut, .call (.scroll 1)]).host ∧
      LastFrame plain 10 2 100 s := by
  have hmeets : (machine Bool plain 10 2 100).Meets InOrder (created plain 10 2 100)
      interleaved := by
    decide +kernel
  have htest : ((machine Bool plain 10 2 100).run (created plain 10 2 100) interleaved).any
      (fun s => decide (s.AtRest ∧
        s.content.works = [.advance scrolledOut, .call (.scroll 1)])) = true := by
    decide +kernel
  rcases Lts.Machine.exists_reachable _ interleaved rfl hmeets htest with ⟨s, hrun, horder, hs⟩
  rcases of_decide_eq_true hs with ⟨hrest, hworks⟩
  have hlinear := concurrent_linear (horder.mono fun _ _ _ => trivial)
  refine ⟨s, hrun, hrest, ?_, hlinear.2.2 horder hrest⟩
  rw [← hworks]
  exact hlinear.1

/-- The host keeps the frame from before its scroll. -/
theorem frame_overtaken :
    ∃ s, (machine Bool plain 10 2 100).Reachable (fun _ _ => True) s ∧ s.AtRest ∧
      ¬ LastFrame plain 10 2 100 s := by
  have hmeets : (machine Bool plain 10 2 100).Meets (fun _ _ => True) (created plain 10 2 100)
      overtaken := by
    decide +kernel
  have htest : ((machine Bool plain 10 2 100).run (created plain 10 2 100) overtaken).any
      (fun s => decide (s.AtRest ∧ Work.call (.scroll 1) ∈ s.content.works.getLast? ∧
        (s.render.received.getLast?.map fun f => (f.snap.frame plain).view) ≠
          (oneByOne plain 10 2 100 s.content.works).frame.map RenderSnapshot.view)) = true := by
    decide +kernel
  rcases Lts.Machine.exists_reachable _ overtaken rfl hmeets htest with ⟨s, -, hreach, hs⟩
  rcases of_decide_eq_true hs with ⟨hrest, hlast, hstale⟩
  exact ⟨s, hreach, hrest, fun hframe => hstale (hframe.refines _ hlast rfl)⟩

end RataShell.Concurrent
