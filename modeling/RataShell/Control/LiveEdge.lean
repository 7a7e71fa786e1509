import RataShell.Lib.Machine
import RataShell.Control.Messages
import RataShell.Term.Plain

/-!
# Back to the live edge

Input that is sent brings the view back to the live edge where `FScrollOffset`,
the offset of the last `UpdateScrollInfo`, is not 0. A search moves the view and
leaves `FScrollOffset` as it is, and so does all else until its render message.

* `sent_perform`, `terminal_perform`: what a message of the keyboard sends, and
  where it leaves the view.
* `liveEdge_iff`: when each input of a run ends at the live edge.
* `input_off_edge`: an input behind a search that does not.
-/

namespace RataShell.Input

open Term (Alacritty Lawful Plain plain plain_lawful)

variable {T R : Type}

/-! ## Typed input -/

/-- The messages and calls that reach `SendText` or forward a key. -/
def Label.types : Label → Bool
  | .keyDown _ _ _ | .sysKeyDown _ _ _ | .char _ | .imeComposition _ | .sendText _ => true
  | _ => false

/-- The action sends something. -/
def KeyAction.sends : KeyAction → Bool
  | .sendText text => text ≠ []
  | .forward _ _ => true
  | _ => false

namespace Control

variable (A : Alacritty T R)

/-- What a message or call of `Label.types` does. -/
def action (a : Label) (c : Control T) : KeyAction :=
  match a with
  | .keyDown vk mods clipboard | .sysKeyDown vk mods clipboard => c.keyAction A vk mods clipboard
  | .char unit => c.charAction A unit
  | .imeComposition result => c.imeAction result
  | .sendText text => if c.session.isNone then .ignore else .sendText text
  | _ => .ignore

/-- The view is at the live edge. -/
def AtLiveEdge (c : Control T) : Prop := ∀ t ∈ c.terminal, (A.grid t).displayOffset = 0

instance (c : Control T) : Decidable (c.AtLiveEdge A) :=
  match h : c.terminal with
  | none => isTrue (by simp [AtLiveEdge, h])
  | some t => decidable_of_iff ((A.grid t).displayOffset = 0) (by simp [AtLiveEdge, h])

variable {A} {c : Control T}

/-- What decides on the action is not what the last message has sent. -/
theorem action_clearSent (a : Label) : c.clearSent.action A a = c.action A a := rfl

/-- What sends does so to a session. -/
theorem session_of_sends {a : Label} (hsends : (c.action A a).sends = true) :
    c.session.isNone = false := by
  rw [Bool.eq_false_iff]
  intro hnone
  cases a with
  | imeComposition result =>
      cases result <;> simp [action, imeAction, hnone, KeyAction.sends] at hsends
  | _ => simp [action, keyAction, charAction, hnone, KeyAction.sends] at hsends

/-- Those messages do what `action` says. -/
theorem handle_types {a : Label} (ha : a.types = true) :
    handle A a c = some (c.perform A (c.action A a)) := by
  cases a with
  | sendText text =>
      simp only [handle, action]
      split
      · rename_i hnone
        simp [perform, sendText, hnone]
      · rfl
  | keyDown | sysKeyDown | char | imeComposition => rfl
  | _ => cases ha

/-- Nothing is sent but by the actions that send. -/
theorem sent_perform (k : KeyAction) (hsession : k.sends = true → c.session.isNone = false)
    (hsent : c.sent = []) : (c.perform A k).sent ≠ [] ↔ k.sends = true := by
  cases k with
  | sendText text =>
      cases text with
      | nil => simp [perform, sendText, KeyAction.sends, hsent]
      | cons u text =>
          have hsome := hsession rfl
          simp [perform, sendText, rataSendText, KeyAction.sends, hsome]
  | forward vk mods => simp [perform, forwardKey, rataSendKey, KeyAction.sends]
  | searchAgain forward =>
      simp only [perform, searchAgain, searchNext, KeyAction.sends]
      split <;> simp [hsent]
  | _ => simp [perform, toggleViMode, viMotion, KeyAction.sends, hsent]

/-- An action that sends leaves the terminal where the live edge is sought. -/
theorem terminal_perform {k : KeyAction} (hsends : k.sends = true)
    (hsession : c.session.isNone = false) :
    (c.perform A k).terminal = (c.toLiveEdge A).terminal := by
  cases k with
  | sendText text =>
      have htext : text ≠ [] := by simpa [KeyAction.sends] using hsends
      simp [perform, sendText, hsession, htext, rataSendText, terminal]
  | forward vk mods =>
      simp only [perform, forwardKey, rataSendKey, terminal, Option.map_map]
      rfl
  | _ => cases hsends

/-- The live edge is reached from a remembered offset other than 0, and kept. -/
theorem atLiveEdge_toLiveEdge (hA : Lawful A) (hsession : c.session.isNone = false) :
    (c.toLiveEdge A).AtLiveEdge A ↔ 0 < c.scrollOffset ∨ c.AtLiveEdge A := by
  obtain ⟨s, hs⟩ : ∃ s, c.session = some s := by
    cases hsome : c.session with
    | none => simp [hsome] at hsession
    | some s => exact ⟨s, rfl⟩
  rw [AtLiveEdge, terminal_toLiveEdge]
  simp only [AtLiveEdge, terminal, hs, Option.map_some, Option.mem_def, Option.some.injEq,
    forall_eq', hA.selectionClear_grid]
  split
  · rename_i hpos
    simp [hA.scroll_grid, Term.Scroll.offset, hpos]
  · rename_i hzero
    simp [hzero]

end Control

/-! ## Runs -/

/-- A control, and whether its last step was input that has been sent. -/
structure Typed (T : Type) where
  control : Control T
  typed : Bool

namespace Typed

open Input.Control

variable (A : Alacritty T R)

def step (a : Label) (s : Typed T) : Option (Typed T) :=
  (s.control.step A a).map fun c => ⟨c, a.types && decide (c.sent ≠ [])⟩

def machine : Lts.Machine (Typed T) Label where
  Init s := Control.Init s.control ∧ s.typed = false
  step := step A

/-- Input that has been sent leaves the view at the live edge. -/
def EdgeAfter (s : Typed T) : Prop := s.typed = true → s.control.AtLiveEdge A

/-- Input is sent from the live edge or while a remembered offset tells that the
view is elsewhere. -/
def Remembered (a : Label) (s : Typed T) : Prop :=
  (s.control.action A a).sends = true → 0 < s.control.scrollOffset ∨ s.control.AtLiveEdge A

instance (s : Typed T) : Decidable (s.EdgeAfter A) :=
  inferInstanceAs (Decidable (s.typed = true → s.control.AtLiveEdge A))

instance (a : Label) (s : Typed T) : Decidable (Remembered A a s) :=
  inferInstanceAs (Decidable ((s.control.action A a).sends = true →
    0 < s.control.scrollOffset ∨ s.control.AtLiveEdge A))

variable {A}

theorem edgeAfter_step_iff (hA : Lawful A) {a : Label} {s s' : Typed T}
    (hstep : s.step A a = some s') : s'.EdgeAfter A ↔ Remembered A a s := by
  rcases Option.map_eq_some_iff.1 hstep with ⟨c, hc, rfl⟩
  cases ha : a.types with
  | false =>
      refine iff_of_true (fun htyped => by simp at htyped) (fun hsends => ?_)
      cases a <;> simp [Label.types, action, KeyAction.sends] at ha hsends
  | true =>
      rw [Control.step, handle_types ha] at hc
      cases hc
      have hsession := session_of_sends (A := A) (c := s.control) (a := a)
      have hsent := sent_perform (A := A) (c := s.control.clearSent) (s.control.action A a) hsession
        rfl
      have hedge := atLiveEdge_toLiveEdge (c := s.control.clearSent) hA
      simp only [EdgeAfter, Remembered, Bool.true_and, decide_eq_true_eq, action_clearSent, hsent]
      refine imp_congr_right fun hsends => ?_
      rw [AtLiveEdge, terminal_perform (c := s.control.clearSent) hsends (hsession hsends)]
      exact hedge (hsession hsends)

/-- In a run, every input that is sent ends at the live edge exactly when each one is
sent from there or with a remembered offset other than 0. -/
theorem liveEdge_iff (hA : Lawful A) (c : Control T) (as : List Label) :
    (machine A).Along (EdgeAfter A) ⟨c, false⟩ as ↔
      (machine A).Meets (Remembered A) ⟨c, false⟩ as := by
  refine Lts.Machine.along_iff_meets (I := fun _ => True) ?_ ?_ as trivial ?_
  · intro _ _ _ _ _
    trivial
  · intro a s s' hstep _ _
    exact edgeAfter_step_iff hA hstep
  · intro htyped
    cases htyped

/-- A new control with a window. -/
def opened : Typed Plain := ⟨Control.create 8 16 172 32, false⟩

theorem opened_init : (machine plain).Init opened := ⟨⟨8, 16, 172, 32, rfl⟩, rfl⟩

/-- `x` has moved up into the history and its frame has been shown. -/
def scrolledOut : List Label :=
  [.start 100, .output [[0x78, 13, 10, 13, 10, 13, 10]], .wmRataRender]

/-- A search scrolls up to `x`; the letter typed next leaves the view there. -/
theorem input_off_edge :
    ∃ s, (machine plain).Reachable (fun _ _ => True) s ∧ ¬ s.EdgeAfter plain := by
  have hmeets : (machine plain).Meets (fun _ _ => True) opened
      (scrolledOut ++ [.method (.searchNext "x" false), .char 0x61]) := by
    decide +kernel
  have htest : ((machine plain).run opened
      (scrolledOut ++ [.method (.searchNext "x" false), .char 0x61])).any
      (fun s => decide (¬ s.EdgeAfter plain)) = true := by
    decide +kernel
  rcases Lts.Machine.exists_reachable _ _ opened_init hmeets htest with ⟨s, -, hs, hnot⟩
  exact ⟨s, hs, of_decide_eq_true hnot⟩

/-- After a scroll of its own, the control goes back. -/
theorem input_at_edge :
    (machine plain).Along (EdgeAfter plain) opened
      (scrolledOut ++ [.method .scrollToTop, .char 0x61, .wmRataRender, .keyDown 0x0D 0 []]) :=
  (liveEdge_iff plain_lawful _ _).2 (by decide +kernel)

end Typed

end RataShell.Input
