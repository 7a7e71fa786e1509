import RataShell.Control.LiveEdge

/-!
# Read only and the vi mode

While the control is read only no input is to reach the shell, and in the vi mode
none of the keyboard. The keys and characters keep to it; the mouse handlers do not
ask for `FReadOnly`, and a committed composition not for the vi mode.

* `sent_mouse`: a mouse message sends exactly where its handler reaches a report.
* `gated_iff`: when no message of a run sends what it must not.
* `input_leaks`: a run in which the mouse does, and one in which a composition does.
-/

namespace RataShell.Input

open Term (Alacritty Plain plain)

variable {T R : Type}

/-- Messages of keyboard and composition. -/
def Label.keyboard : Label → Bool
  | .keyDown _ _ _ | .sysKeyDown _ _ _ | .char _ | .imeChar | .imeStartComposition
  | .imeComposition _ | .imeEndComposition => true
  | _ => false

/-- Messages of the mouse. -/
def Label.mouse : Label → Bool
  | .mouseDown _ _ _ _ _ _ | .mouseMove _ _ _ | .mouseUp _ _ _ _ | .mouseWheel _ _ _ _ => true
  | _ => false

/-- The message commits a composition with a text. -/
def Label.commits : Label → Bool
  | .imeComposition (some text) => text ≠ []
  | _ => false

namespace Control

variable (A : Alacritty T R)

/-- The message must not send anything. -/
def forbids (a : Label) (c : Control T) : Bool :=
  c.readOnly && (a.keyboard || a.mouse) || c.viModeActive A && a.keyboard

/-- The pointer is left of the scroll bar. -/
def leftOfScrollBar (ax : Int) (c : Control T) : Bool := ax < c.scrollBarLeft

/-- The mouse is tracked and the message is one of those that its handler reports: all
but a move that the modes do not ask for, Ctrl and the left button on a hyperlink, and
over the scroll bar all but the wheel. -/
def tracks (a : Label) (c : Control T) : Bool :=
  c.isMouseTrackingActive A && decide (0 < c.cellW ∧ 0 < c.cellH) &&
    match a with
    | .mouseDown button shift ax ay _ _ =>
        c.leftOfScrollBar ax && !c.opensLink button shift ax ay
    | .mouseMove shift ax _ => c.leftOfScrollBar ax && c.sendMotion A shift
    | .mouseUp _ _ ax _ => c.leftOfScrollBar ax
    | .mouseWheel _ _ _ _ => true
    | _ => false

/-- The report of a mouse message. -/
def mouseReport (a : Label) (c : Control T) : Option Report :=
  match a with
  | .mouseDown button shift ax ay _ _ => c.downReport A button shift ax ay
  | .mouseMove shift ax ay => c.moveReport A shift ax ay
  | .mouseUp button shift ax ay => c.upReport A button shift ax ay
  | .mouseWheel shift delta ax ay => c.wheelReport A shift delta ax ay
  | _ => none

variable {A} {c : Control T}

/-! ## Keys -/

/-- No key and no character of the vi mode sends. -/
theorem viKeys_silent (rows : Int) (vk : UInt16) :
    (((viKeys rows).lookup vk).getD .ignore).sends = false := by
  have hall : ∀ p ∈ viKeys rows, p.2.sends = false := by
    simp [viKeys, KeyAction.sends]
  cases hlookup : (viKeys rows).lookup vk with
  | none => rfl
  | some k =>
      rcases List.lookup_eq_some_iff.1 hlookup with ⟨l, l', hkeys, -⟩
      exact hall (vk, k) (by simp [hkeys])

theorem viChars_silent (unit : UInt16) :
    (((viChars.find? fun p => p.1.toNat = unit.toNat).map Prod.snd).getD .ignore).sends =
      false := by
  have hall : ∀ p ∈ viChars, p.2.sends = false := by decide
  cases hfind : viChars.find? fun p => p.1.toNat = unit.toNat with
  | none => rfl
  | some p => exact hall p (List.mem_of_find?_eq_some hfind)

/-- What is forbidden, by the kind of the message. -/
theorem forbids_eq {a : Label} {k m : Bool} (hkeyboard : a.keyboard = k) (hmouse : a.mouse = m) :
    c.forbids A a = (c.readOnly && (k || m) || c.viModeActive A && k) := by
  rw [forbids, hkeyboard, hmouse]

/-- A control that is read only or in the vi mode sends no key. -/
theorem keyAction_silent (hgate : c.readOnly = true ∨ c.viModeActive A = true) (vk : UInt16)
    (mods : UInt32) (clipboard : Text) : (c.keyAction A vk mods clipboard).sends = false := by
  unfold keyAction
  simp only
  rcases hgate with hread | hvi
  · simp [hread, KeyAction.sends]
  · simp only [hvi, if_true]
    -- what comes before the vi keys is a shortcut of the control
    have hsilent := viKeys_silent c.rows vk
    repeat' split
    all_goals first | exact hsilent | rfl

/-- Nor a character. -/
theorem charAction_silent (hgate : c.readOnly = true ∨ c.viModeActive A = true) (unit : UInt16) :
    (c.charAction A unit).sends = false := by
  unfold charAction
  rcases hgate with hread | hvi
  · simp [hread, KeyAction.sends]
  · have hsilent := viChars_silent unit
    repeat' split
    all_goals first | exact hsilent | rfl

/-- Where nothing must be sent, keys and characters send nothing. -/
theorem key_silent {a : Label} (hforbids : c.forbids A a = true)
    (hcommits : a.commits = false) : (c.action A a).sends = false := by
  have hgate : c.readOnly = true ∨ c.viModeActive A = true := by
    simp only [forbids, Bool.or_eq_true, Bool.and_eq_true] at hforbids
    exact hforbids.imp And.left And.left
  cases a with
  | keyDown vk mods clipboard => exact keyAction_silent hgate vk mods clipboard
  | sysKeyDown vk mods clipboard => exact keyAction_silent hgate vk mods clipboard
  | char unit => exact charAction_silent hgate unit
  | imeComposition result =>
      -- nothing is committed, or an empty text
      cases result with
      | none => rfl
      | some text =>
          have htext : text = [] := by simpa [Label.commits] using hcommits
          simp only [action, imeAction]
          split <;> simp [KeyAction.sends, htext]
  | sendText text =>
      rw [forbids_eq (k := false) (m := false) rfl rfl] at hforbids
      simp at hforbids
  | _ => rfl

/-- Only a session is in the vi mode. -/
theorem session_of_viMode (h : c.viModeActive A = true) : c.session.isNone = false := by
  cases hsession : c.session with
  | none => simp [viModeActive, hsession] at h
  | some s => rfl

/-- A committed text is sent unless the control is read only. -/
theorem sends_commit {a : Label} (hcommits : a.commits = true) :
    (c.action A a).sends = (!c.readOnly && !c.session.isNone) := by
  cases a with
  | imeComposition result =>
      cases result with
      | none => cases hcommits
      | some text =>
          have htext : text ≠ [] := by simpa [Label.commits] using hcommits
          simp only [action, imeAction]
          cases c.readOnly <;> cases c.session.isNone <;> simp [KeyAction.sends, htext]
  | _ => cases hcommits

/-! ## The mouse -/

/-- The mouse points at a cell as soon as cells have a size. -/
theorem mouseToCell_isSome (ax ay : Int) :
    (c.mouseToCell ax ay).isSome = decide (0 < c.cellW ∧ 0 < c.cellH) := by
  unfold mouseToCell
  split <;> simp <;> omega

theorem trackedCell_isSome (ax ay : Int) :
    (c.trackedCell A ax ay).isSome =
      (c.isMouseTrackingActive A && decide (0 < c.cellW ∧ 0 < c.cellH) &&
        c.leftOfScrollBar ax) := by
  unfold trackedCell leftOfScrollBar
  split
  · rename_i h
    simp [h, mouseToCell_isSome]
  · rename_i h
    simp only [Option.isSome_none]
    grind

/-- A message has a report exactly where it is tracked. -/
theorem mouseReport_isSome (a : Label) : (c.mouseReport A a).isSome = c.tracks A a := by
  cases a with
  | mouseDown button shift ax ay now doubleClick =>
      simp only [mouseReport, tracks, downReport]
      cases c.opensLink button shift ax ay <;> simp [trackedCell_isSome]
  | mouseMove shift ax ay =>
      simp only [mouseReport, tracks, moveReport]
      cases c.sendMotion A shift <;> simp [trackedCell_isSome]
  | mouseUp button shift ax ay => simp [mouseReport, tracks, upReport, trackedCell_isSome]
  | mouseWheel shift delta ax ay =>
      simp only [mouseReport, tracks, wheelReport]
      cases c.isMouseTrackingActive A <;> simp [mouseToCell_isSome]
  | _ => simp [mouseReport, tracks]

theorem scrollByLines_sent (lines : Int) : (c.scrollByLines A lines).sent = c.sent := by
  unfold scrollByLines
  split <;> simp

theorem clickScrollBar_sent (ay : Int) : (c.clickScrollBar A ay).sent = c.sent := by
  unfold clickScrollBar
  simp only
  split
  · rfl
  · split
    · rfl
    · exact scrollByLines_sent _

theorem startSelection_sent (shift : ShiftState) (ax ay : Int) (col row : Nat) (now : UInt32)
    (doubleClick : Int) :
    (c.startSelection A shift ax ay col row now doubleClick).sent = c.sent := by
  simp [startSelection, selectionStart]

theorem dragSelection_sent (ax ay : Int) : (c.dragSelection A ax ay).sent = c.sent := by
  unfold dragSelection selectionExtend
  simp only
  split <;> (repeat' split) <;> simp

theorem dragThumb_sent (ay : Int) : (c.dragThumb A ay).sent = c.sent := by
  unfold dragThumb
  simp only
  split
  · rfl
  · exact scrollByLines_sent _

/-- Only the mouse of a session is tracked. -/
theorem session_of_tracking (h : c.isMouseTrackingActive A = true) : c.session.isNone = false := by
  cases hsession : c.session with
  | none => simp [isMouseTrackingActive, modeFlags, hsession] at h
  | some s => rfl

/-- Only the mouse is tracked. -/
theorem tracks_mouse {a : Label} (h : a.mouse = false) : c.tracks A a = false := by
  cases a with
  | mouseDown | mouseMove | mouseUp | mouseWheel => cases h
  | _ => simp [tracks]

/-- What is reported is reported to a session. -/
theorem session_of_report {a : Label} {r : Report} (h : c.mouseReport A a = some r) :
    c.session.isNone = false := by
  have htracks : c.tracks A a = true := by rw [← mouseReport_isSome, h, Option.isSome_some]
  simp only [tracks, Bool.and_eq_true] at htracks
  exact session_of_tracking htracks.1.1

/-- A report is sent. -/
theorem sent_report {a : Label} {r : Report} (h : c.mouseReport A a = some r) (press : Bool) :
    (c.sendMouseSequence A r press).sent ≠ [] := by
  simp [sendMouseSequence, session_of_report h, rataSendText]

theorem mouseDown_sent (button : MouseButton) (shift : ShiftState) (ax ay : Int) (now : UInt32)
    (doubleClick : Int) (hsent : c.sent = []) :
    (c.mouseDown A button shift ax ay now doubleClick).sent = [] ↔
      c.downReport A button shift ax ay = none := by
  unfold mouseDown
  split
  · rename_i hopens
    simp [downReport, hopens, hsent]
  · split
    · rename_i r hr
      have hreport : c.mouseReport A (.mouseDown button shift ax ay now doubleClick) = some r := hr
      exact iff_of_false (sent_report hreport true) (by simp [hr])
    · rename_i hnone
      -- a click into the text selects, one into the scroll bar scrolls
      refine iff_of_true ?_ hnone
      repeat' split
      all_goals simp [hsent, startSelection_sent, clickScrollBar_sent]

theorem mouseMove_sent (shift : ShiftState) (ax ay : Int) (hsent : c.sent = []) :
    (c.mouseMove A shift ax ay).sent = [] ↔ c.moveReport A shift ax ay = none := by
  unfold mouseMove
  split
  · rename_i r hr
    have hreport : c.mouseReport A (.mouseMove shift ax ay) = some r := hr
    exact iff_of_false (sent_report hreport true) (by simp [hr])
  · rename_i hnone
    refine iff_of_true ?_ hnone
    repeat' split
    all_goals simp [hsent, dragSelection_sent, dragThumb_sent]

theorem mouseUp_sent (button : MouseButton) (shift : ShiftState) (ax ay : Int)
    (hsent : c.sent = []) :
    (c.mouseUp A button shift ax ay).sent = [] ↔ c.upReport A button shift ax ay = none := by
  unfold mouseUp
  split
  · rename_i r hr
    have hreport : c.mouseReport A (.mouseUp button shift ax ay) = some r := hr
    exact iff_of_false (sent_report hreport false) (by simp [hr])
  · rename_i hnone
    refine iff_of_true ?_ hnone
    split <;> exact hsent

theorem mouseWheel_sent (shift : ShiftState) (delta ax ay : Int) (hsent : c.sent = []) :
    (c.doMouseWheel A shift delta ax ay).sent = [] ↔ c.wheelReport A shift delta ax ay = none := by
  unfold doMouseWheel
  split
  · split
    · rename_i r hr
      have hreport : c.mouseReport A (.mouseWheel shift delta ax ay) = some r := hr
      exact iff_of_false (sent_report hreport true) (by simp [hr])
    · rename_i hnone
      exact iff_of_true hsent hnone
  · rename_i htracking
    refine iff_of_true ((scrollByLines_sent _).trans hsent) ?_
    simp [wheelReport, htracking]

/-- A mouse message sends nothing exactly where it is not tracked. -/
theorem sent_mouse {a : Label} {c' : Control T} (ha : a.mouse = true) (hsent : c.sent = [])
    (hhandle : c.handle A a = some c') : c'.sent = [] ↔ c.tracks A a = false := by
  rw [← mouseReport_isSome, Option.isSome_eq_false_iff, Option.isNone_iff_eq_none]
  cases a with
  | mouseDown button shift ax ay now doubleClick =>
      cases hhandle
      exact mouseDown_sent button shift ax ay now doubleClick hsent
  | mouseMove shift ax ay =>
      cases hhandle
      exact mouseMove_sent shift ax ay hsent
  | mouseUp button shift ax ay =>
      cases hhandle
      exact mouseUp_sent button shift ax ay hsent
  | mouseWheel shift delta ax ay =>
      cases hhandle
      exact mouseWheel_sent shift delta ax ay hsent
  | _ => cases ha

end Control

/-! ## Runs -/

/-- A control, and whether its last message has sent what it must not. -/
structure Guarded (T : Type) where
  control : Control T
  leaked : Bool

namespace Guarded

open Input.Control

variable (A : Alacritty T R)

def step (a : Label) (s : Guarded T) : Option (Guarded T) :=
  (s.control.step A a).map fun c => ⟨c, s.control.forbids A a && decide (c.sent ≠ [])⟩

def machine : Lts.Machine (Guarded T) Label where
  Init s := Control.Init s.control ∧ s.leaked = false
  step := step A

/-- The last message has sent nothing that it must not. -/
def Tight (s : Guarded T) : Prop := s.leaked = false

/-- While the control is read only no mouse message is tracked, and in the vi mode of
one that is not read only no composition is committed. -/
def Quiet (a : Label) (s : Guarded T) : Prop :=
  (s.control.readOnly = true → s.control.tracks A a = false) ∧
    (s.control.viModeActive A = true → s.control.readOnly = false → a.commits = false)

instance (s : Guarded T) : Decidable s.Tight := inferInstanceAs (Decidable (_ = _))

instance (a : Label) (s : Guarded T) : Decidable (Quiet A a s) :=
  inferInstanceAs (Decidable ((s.control.readOnly = true → s.control.tracks A a = false) ∧
    (s.control.viModeActive A = true → s.control.readOnly = false → a.commits = false)))

variable {A}

/-- A message of the keyboard sends nothing exactly when its action does not send. -/
theorem sent_keyboard {a : Label} {c c' : Control T} (ha : a.types = true)
    (hstep : c.step A a = some c') : c'.sent = [] ↔ (c.action A a).sends = false := by
  rw [Control.step, handle_types ha, action_clearSent] at hstep
  cases hstep
  have hsession := session_of_sends (A := A) (c := c) (a := a)
  have hsent := sent_perform (A := A) (c := c.clearSent) (c.action A a) hsession rfl
  rw [← Bool.not_eq_true, ← hsent, ne_eq, not_not]

/-- A message of the mouse keeps the gate exactly when it is not tracked where the
control is read only. -/
theorem tight_mouse_iff {a : Label} {c c' : Control T} (hmouse : a.mouse = true)
    (hstep : c.step A a = some c') :
    (c.forbids A a = true → c'.sent = []) ↔ (c.readOnly = true → c.tracks A a = false) := by
  -- a mouse message is no message of the keyboard
  have hkeyboard : a.keyboard = false := by
    cases a <;> first | rfl | cases hmouse
  have hforbids : c.forbids A a = c.readOnly := by
    simp [forbids_eq hkeyboard hmouse]
  have hsent : c'.sent = [] ↔ c.tracks A a = false :=
    sent_mouse (A := A) (c := c.clearSent) hmouse rfl hstep
  rw [hforbids, hsent]

/-- A committed text keeps the gate exactly when the vi mode is off or the control is
read only. -/
theorem tight_commit_iff {a : Label} {c c' : Control T} (hcommits : a.commits = true)
    (hstep : c.step A a = some c') :
    (c.forbids A a = true → c'.sent = []) ↔
      (c.viModeActive A = true → c.readOnly ≠ false) := by
  have hkinds : a.mouse = false ∧ a.keyboard = true ∧ a.types = true := by
    cases a <;> first | exact ⟨rfl, rfl, rfl⟩ | cases hcommits
  have hforbids : c.forbids A a = true ↔ c.readOnly = true ∨ c.viModeActive A = true := by
    simp [forbids_eq hkinds.2.1 hkinds.1]
  rw [sent_keyboard hkinds.2.2 hstep, sends_commit hcommits, hforbids]
  constructor
  · intro h hvi hread
    have hsends := h (.inr hvi)
    simp [hread, session_of_viMode hvi] at hsends
  · rintro h (hread | hvi)
    · simp [hread]
    · simp [Bool.eq_true_of_not_eq_false (h hvi)]

/-- All other messages keep the gate. -/
theorem tight_other {a : Label} {c c' : Control T} (hmouse : a.mouse = false)
    (hcommits : a.commits = false) (hstep : c.step A a = some c')
    (hforbids : c.forbids A a = true) : c'.sent = [] := by
  cases htypes : a.types with
  | true => exact (sent_keyboard htypes hstep).2 (key_silent hforbids hcommits)
  | false =>
      cases hkeyboard : a.keyboard with
      | false =>
          rw [forbids_eq hkeyboard hmouse] at hforbids
          simp at hforbids
      | true =>
          -- the messages of a composition that commit nothing
          cases a with
          | imeChar | imeStartComposition | imeEndComposition =>
              cases hstep
              rfl
          | keyDown | sysKeyDown | char | imeComposition => cases htypes
          | _ => cases hkeyboard

theorem tight_step_iff {a : Label} {s s' : Guarded T} (hstep : s.step A a = some s') :
    s'.Tight ↔ Quiet A a s := by
  rcases Option.map_eq_some_iff.1 hstep with ⟨c, hc, rfl⟩
  have htight : Guarded.Tight ⟨c, s.control.forbids A a && decide (c.sent ≠ [])⟩ ↔
      (s.control.forbids A a = true → c.sent = []) := by
    simp [Tight]
  rw [htight]
  cases hmouse : a.mouse with
  | true =>
      have hcommits : a.commits = false := by
        cases a <;> first | rfl | cases hmouse
      rw [tight_mouse_iff hmouse hc]
      simp only [Quiet, hcommits, implies_true, and_true]
  | false =>
      simp only [Quiet, tracks_mouse hmouse, implies_true, true_and]
      cases hcommits : a.commits with
      | true =>
          rw [tight_commit_iff hcommits hc]
          simp
      | false => exact iff_of_true (tight_other hmouse hcommits hc) fun _ _ => rfl

/-- In a run, nothing is sent that must not be exactly when no mouse message is tracked
while the control is read only, and no composition is committed in the vi mode. -/
theorem gated_iff (c : Control T) (as : List Label) :
    (machine A).Along Tight ⟨c, false⟩ as ↔ (machine A).Meets (Quiet A) ⟨c, false⟩ as := by
  refine Lts.Machine.along_iff_meets (I := fun _ => True) ?_ ?_ as trivial rfl
  · intro _ _ _ _ _
    trivial
  · intro a s s' hstep _ _
    exact tight_step_iff hstep

/-- A new control with a window. -/
def opened : Guarded Plain := ⟨Control.create 8 16 172 32, false⟩

theorem opened_init : (machine plain).Init opened := ⟨⟨8, 16, 172, 32, rfl⟩, rfl⟩

/-- The shell asks for the mouse, with `ESC [ ? 1000 h`; the control is made read only
and clicked. -/
def clicked : List Label :=
  [.start 100, .output [[0x1B, 0x5B, 0x3F, 0x31, 0x30, 0x30, 0x30, 0x68]], .setReadOnly true,
   .mouseDown .mbLeft ⟨false, false, false, true, false, false⟩ 10 10 0 500]

/-- A syllable is committed in the vi mode. -/
def composed : List Label :=
  [.start 100, .method .toggleViMode, .imeStartComposition, .imeComposition (some [0xAC00])]

/-- The click of a read only control is sent, and so is a syllable of the vi mode. -/
theorem input_leaks :
    (∃ s, (machine plain).Reachable (fun _ _ => True) s ∧ s.control.readOnly = true ∧ ¬ s.Tight) ∧
      ∃ s, (machine plain).Reachable (fun _ _ => True) s ∧
        s.control.viModeActive plain = true ∧ ¬ s.Tight := by
  have hclick : (machine plain).Meets (fun _ _ => True) opened clicked := by
    decide +kernel
  have hclicked : ((machine plain).run opened clicked).any
      (fun s => decide (s.control.readOnly = true ∧ ¬ s.Tight)) = true := by
    decide +kernel
  have hcompose : (machine plain).Meets (fun _ _ => True) opened composed := by
    decide +kernel
  have hcomposed : ((machine plain).run opened composed).any
      (fun s => decide (s.control.viModeActive plain = true ∧ ¬ s.Tight)) = true := by
    decide +kernel
  rcases Lts.Machine.exists_reachable _ _ opened_init hclick hclicked with ⟨s, -, hs, hleak⟩
  rcases Lts.Machine.exists_reachable _ _ opened_init hcompose hcomposed with ⟨s', -, hs', hleak'⟩
  exact ⟨⟨s, hs, of_decide_eq_true hleak⟩, ⟨s', hs', of_decide_eq_true hleak'⟩⟩

end Guarded

end RataShell.Input
