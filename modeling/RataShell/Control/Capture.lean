import RataShell.Control.Gates

/-!
# The mouse from press to release

A press of a button is taken by one of three: a report to the shell, the
selection of text or the thumb of the scroll bar. Each handler decides anew, by
the present position and the present tracking mode of the terminal, so that the
release can go elsewhere.

* `drag_handle`: only the press and the release change who drags.
* `captured_iff`: when in a run each release goes where its press went.
* `capture_lost`: a selection that outlives its release.
-/

namespace RataShell.Input

open Term (Alacritty Op Plain plain)

variable {T R : Type}

/-! ## Who drags -/

/-- The fields of a drag: `FSelectingDrag`, `FScrollDraggingThumb` and whether
`FAutoScrollTimer` runs. -/
structure Drag where
  selecting : Bool
  thumb : Bool
  timer : Bool
deriving DecidableEq, Repr

attribute [ext] Drag

/-- Presses and releases. -/
def Label.button : Label → Bool
  | .mouseDown _ _ _ _ _ _ | .mouseUp _ _ _ _ => true
  | _ => false

/-- Releases. -/
def Label.release : Label → Bool
  | .mouseUp _ _ _ _ => true
  | _ => false

namespace Control

variable {A : Alacritty T R} {c c' : Control T}

def drag (c : Control T) : Drag := ⟨c.selectingDrag, c.scrollDraggingThumb, c.autoScrollTimer⟩

theorem drag_aside : Aside (drag (T := T)) := fun _ _ _ _ => rfl

@[simp] theorem drag_call (op : Op) : (c.call A op).drag = c.drag := drag_aside.call op

@[simp] theorem drag_updateScrollInfo : (c.updateScrollInfo A).drag = c.drag := by
  unfold updateScrollInfo
  split <;> rfl

@[simp] theorem drag_scrollByLines (lines : Int) : (c.scrollByLines A lines).drag = c.drag := by
  unfold scrollByLines
  split <;> simp

@[simp] theorem drag_rataSendText (bytes : List UInt8) : (c.rataSendText bytes).drag = c.drag := rfl

@[simp] theorem drag_forwardKey (vk : UInt16) (mods : UInt32) :
    (c.forwardKey A vk mods).drag = c.drag := drag_aside.forwardKey vk mods

@[simp] theorem drag_sendMouseSequence (r : Report) (press : Bool) :
    (c.sendMouseSequence A r press).drag = c.drag := by
  unfold sendMouseSequence
  split <;> simp

@[simp] theorem drag_searchNext (pattern : String) (forward : Bool) :
    (c.searchNext A pattern forward).drag = c.drag := by
  unfold searchNext
  split <;> simp

@[simp] theorem drag_sendText (text : Text) : (c.sendText A text).drag = c.drag :=
  drag_aside.sendText text

/-- No key drags. -/
@[simp] theorem drag_perform (k : KeyAction) : (c.perform A k).drag = c.drag := by
  cases k with
  | showSearchDialog => rfl
  | _ => simp [perform, searchAgain, toggleViMode, viMotion]

/-- No method drags. -/
theorem drag_method (op : Op) (h : c.method A op = some c') : c'.drag = c.drag := by
  cases op with
  | resize cols rows => cases h
  | _ =>
      cases h
      simp [scroll, scrollToTop, scrollToBottom, clearHistory, softReset, selectionStart,
        selectionExtend, selectionClear, toggleViMode, viMotion]

/-- What a message other than a press and a release leaves of a drag: its timer
runs only during a selection. -/
def Kept (d d' : Drag) : Prop :=
  d'.selecting = d.selecting ∧ d'.thumb = d.thumb ∧
    (d'.timer = true → d.timer = true ∨ d.selecting = true)

theorem Kept.of_eq {d d' : Drag} (h : d' = d) : Kept d d' := by
  subst h
  exact ⟨rfl, rfl, Or.inl⟩

theorem drag_dragSelection (ax ay : Int) (hselecting : c.selectingDrag = true) :
    Kept c.drag (c.dragSelection A ax ay).drag := by
  have htimer : ∀ timer, Kept c.drag ⟨c.selectingDrag, c.scrollDraggingThumb, timer⟩ :=
    fun _ => ⟨rfl, rfl, fun _ => .inr hselecting⟩
  unfold dragSelection
  simp only
  split
  · rw [selectionExtend, drag_call]
    split
    · exact htimer true
    · split
      · exact htimer true
      · exact htimer false
  · split
    · exact htimer true
    · split
      · exact htimer true
      · exact htimer false

theorem drag_mouseMove (shift : ShiftState) (ax ay : Int) :
    Kept c.drag (c.mouseMove A shift ax ay).drag := by
  unfold mouseMove
  split
  · exact .of_eq (by simp)
  · split
    · exact drag_dragSelection ax ay (by assumption)
    · split
      · refine .of_eq ?_
        unfold dragThumb
        simp only
        split <;> simp
      · exact .of_eq rfl

theorem drag_doAutoScrollTick : Kept c.drag (c.doAutoScrollTick A).drag := by
  unfold doAutoScrollTick
  split
  · exact ⟨rfl, rfl, fun h => by cases h⟩
  · refine .of_eq ?_
    simp only
    split <;> simp [selectionExtend]

@[simp] theorem drag_doMouseWheel (shift : ShiftState) (delta ax ay : Int) :
    (c.doMouseWheel A shift delta ax ay).drag = c.drag := by
  unfold doMouseWheel
  split
  · split <;> simp
  · simp

theorem drag_startSelection (shift : ShiftState) (ax ay : Int) (col row : Nat) (now : UInt32)
    (doubleClick : Int) :
    (c.startSelection A shift ax ay col row now doubleClick).drag =
      { c.drag with selecting := true } := by
  have hset : ∀ c' : Control T,
      ({ c' with selectingDrag := true } : Control T).drag = { c'.drag with selecting := true } :=
    fun _ => rfl
  unfold startSelection
  simp only
  rw [hset, selectionStart, drag_call]
  rfl

/-- A press that is reported starts no drag, another one at most one. -/
theorem drag_mouseDown (button : MouseButton) (shift : ShiftState) (ax ay : Int) (now : UInt32)
    (doubleClick : Int) :
    (c.mouseDown A button shift ax ay now doubleClick).drag = c.drag ∨
      c.downReport A button shift ax ay = none ∧
        ((c.mouseDown A button shift ax ay now doubleClick).drag =
            { c.drag with selecting := true } ∨
          (c.mouseDown A button shift ax ay now doubleClick).drag =
            { c.drag with thumb := true }) := by
  unfold mouseDown
  split
  -- the branches in the order of MouseDown: link, report, selection, scroll bar
  · exact .inl rfl
  · split
    · exact .inl (by simp)
    · rename_i hreport
      split
      · split
        · split
          · exact .inl rfl
          · split
            · refine .inr ⟨hreport, .inl ?_⟩
              exact drag_startSelection shift ax ay _ _ now doubleClick
            · exact .inl rfl
        · split
          · unfold clickScrollBar
            simp only
            split
            · exact .inl rfl
            · split
              · exact .inr ⟨hreport, .inr rfl⟩
              · exact .inl (by simp)
          · exact .inl rfl
      · exact .inl rfl

/-- A release that is reported leaves the drag as it is, another one ends it. -/
theorem drag_mouseUp (button : MouseButton) (shift : ShiftState) (ax ay : Int) :
    (c.mouseUp A button shift ax ay).drag =
      if (c.upReport A button shift ax ay).isSome then c.drag
      else if c.selectingDrag then ⟨false, c.scrollDraggingThumb, false⟩
      else { c.drag with thumb := false } := by
  unfold mouseUp
  split
  · rename_i hreport
    simp [hreport]
  · rename_i hreport
    simp only [hreport, Option.isSome_none, Bool.false_eq_true, if_false]
    split <;> rfl

/-- Only a press and a release change who drags. -/
theorem drag_handle {a : Label} (ha : a.button = false) (h : c.handle A a = some c') :
    Kept c.drag c'.drag := by
  cases a with
  | mouseDown | mouseUp => cases ha
  | mouseMove shift ax ay =>
      cases h
      exact drag_mouseMove shift ax ay
  -- the timer stops where nothing is selected, and else scrolls
  | autoScrollTick =>
      simp only [handle] at h
      split at h
      · cases h
        exact drag_doAutoScrollTick
      · cases h
  | method op => exact .of_eq (drag_method op h)
  | output chunks =>
      simp only [handle] at h
      split at h
      · cases h
        unfold output
        split <;> exact .of_eq rfl
      · cases h
  | start scrollback =>
      cases h
      unfold start
      split <;> exact .of_eq rfl
  | searchEditChange pattern =>
      simp only [handle] at h
      split at h
      · cases h
        unfold searchEditChange
        simp only
        split
        · exact .of_eq rfl
        · rw [searchAgain, drag_searchNext]
          exact .of_eq rfl
      · cases h
  | searchBarAgain forward =>
      simp only [handle] at h
      split at h
      · cases h
        exact .of_eq (by simp [searchAgain])
      · cases h
  | wmRataRender =>
      cases h
      unfold handleRenderMessage
      split
      · exact .of_eq rfl
      · rw [drag_updateScrollInfo]
        exact .of_eq rfl
  -- these change the size before they call the session
  | wmSize width height =>
      cases h
      rw [applyResize, drag_call]
      exact .of_eq rfl
  | fontChanged cellW cellH =>
      cases h
      rw [applyResize, drag_call]
      exact .of_eq rfl
  | sendKey vk mods =>
      cases h
      unfold sendKey
      split <;> exact .of_eq rfl
  | keyDown | sysKeyDown | char | imeComposition =>
      cases h
      exact .of_eq (by simp [wmKeyDown, wmChar, wmImeComposition])
  | mouseWheel | sendText =>
      cases h
      exact .of_eq (by simp)
  | imeChar | imeStartComposition | imeEndComposition | wmRataExit | hideSearchBar | stop
  | setReadOnly =>
      cases h
      exact .of_eq rfl

end Control

/-! ## Presses and releases -/

/-- Who takes a press or a release. -/
inductive Consumer where
  | report | selection | thumb | other
deriving DecidableEq, Repr

/-- The drag that is going on. -/
def Drag.consumer (d : Drag) : Consumer :=
  if d.selecting then .selection else if d.thumb then .thumb else .other

/-- What is sent is a report; else the drag takes it. -/
def taker (sent : List Sent) (d : Drag) : Consumer := if sent = [] then d.consumer else .report

/-- A control with the button that is held and who took its press, the presses
(`true`) and releases reported so far, and who took the press and the release of
each button let go. -/
structure Gestures (T : Type) where
  control : Control T
  held : Option (MouseButton × Consumer)
  reports : List (MouseButton × Bool)
  ended : List (Consumer × Consumer)

namespace Gestures

variable (A : Alacritty T R)

/-- A step of the control, with one button at a time. -/
def step (a : Label) (s : Gestures T) : Option (Gestures T) :=
  match a with
  | .mouseDown button _ _ _ _ _ =>
      if s.held = none then
        (s.control.step A a).map fun c =>
          { s with
            control := c
            held := some (button, taker c.sent c.drag)
            reports := s.reports ++ if c.sent = [] then [] else [(button, true)] }
      else none
  | .mouseUp button _ _ _ =>
      match s.held with
      | none => none
      | some (b, k) =>
          if b = button then
            (s.control.step A a).map fun c =>
              { control := c
                held := none
                reports := s.reports ++ if c.sent = [] then [] else [(button, false)]
                ended := s.ended ++ [(k, taker c.sent s.control.drag)] }
          else none
  | _ => (s.control.step A a).map fun c => { s with control := c }

def machine : Lts.Machine (Gestures T) Label where
  Init s := Control.Init s.control ∧ s.held = none ∧ s.reports = [] ∧ s.ended = []
  step := step A

/-- Each press is followed by the release of the same button. -/
inductive Paired : List (MouseButton × Bool) → Prop where
  | nil : Paired []
  | pair {l : List (MouseButton × Bool)} (b : MouseButton) :
      Paired l → Paired (l ++ [(b, true), (b, false)])

/-- Who took the press of the button that is held. -/
def holder (s : Gestures T) : Consumer := (s.held.map Prod.snd).getD .other

/-- The press that waits for its release. -/
def openPress (s : Gestures T) : List (MouseButton × Bool) :=
  match s.held with
  | some (b, .report) => [(b, true)]
  | _ => []

/-- The taker of a press takes its release: with no button held nothing drags and
no timer runs, and the reported presses have their releases. -/
structure Captured (s : Gestures T) : Prop where
  same : ∀ p ∈ s.ended, p.1 = p.2
  idle : s.held = none → s.control.drag = ⟨false, false, false⟩
  paired : ∃ l, Paired l ∧ s.reports = l ++ s.openPress

/-- A release is tracked exactly when the press of its button was reported. -/
def TrackedAlike (a : Label) (s : Gestures T) : Prop :=
  a.release = true → s.control.tracks A a = decide (s.holder = .report)

instance (a : Label) (s : Gestures T) : Decidable (TrackedAlike A a s) :=
  inferInstanceAs (Decidable (a.release = true → _))

/-- While all is captured, the one who took the press drags. -/
structure Sound (s : Gestures T) : Prop where
  same : ∀ p ∈ s.ended, p.1 = p.2
  paired : ∃ l, Paired l ∧ s.reports = l ++ s.openPress
  selecting : s.control.drag.selecting = decide (s.holder = .selection)
  thumb : s.control.drag.thumb = decide (s.holder = .thumb)
  timer : s.control.drag.timer = true → s.control.drag.selecting = true

variable {A} {a : Label} {s s' : Gestures T}

theorem consumer_ne_report (d : Drag) : d.consumer ≠ .report := by
  unfold Drag.consumer
  split
  · simp
  · split <;> simp

theorem taker_eq_report_iff {sent : List Sent} {d : Drag} : taker sent d = .report ↔ sent ≠ [] := by
  unfold taker
  split <;> simp_all [consumer_ne_report]

/-- The drag of a sound state is that of the holder. -/
theorem Sound.consumer_eq (hs : s.Sound) (hreport : s.holder ≠ .report) :
    s.control.drag.consumer = s.holder := by
  unfold Drag.consumer
  rw [hs.selecting, hs.thumb]
  cases hholder : s.holder <;> simp_all

/-- Where nobody drags, no timer runs. -/
theorem Sound.drag_off (hs : s.Sound) (hselection : s.holder ≠ .selection)
    (hthumb : s.holder ≠ .thumb) : s.control.drag = ⟨false, false, false⟩ := by
  have hselecting : s.control.drag.selecting = false := by
    rw [hs.selecting, decide_eq_false hselection]
  have htimer : s.control.drag.timer = false := by
    rw [Bool.eq_false_iff]
    intro htimer
    rw [hs.timer htimer] at hselecting
    cases hselecting
  have hthumb' : s.control.drag.thumb = false := by
    rw [hs.thumb, decide_eq_false hthumb]
  exact Drag.ext hselecting hthumb' htimer

theorem Sound.captured (hs : s.Sound) : s.Captured where
  same := hs.same
  paired := hs.paired
  idle hheld := hs.drag_off (by simp [holder, hheld]) (by simp [holder, hheld])

/-- What one message sends and does to the drag. -/
theorem sent_of_step {c c' : Control T} (ha : a.mouse = true) (h : c.step A a = some c') :
    c'.sent = [] ↔ c.tracks A a = false :=
  Control.sent_mouse (A := A) (c := c.clearSent) ha rfl h

/-! ## One step -/

/-- A press that is not reported starts one drag or none, a reported one none. -/
theorem press_drag {button : MouseButton} {shift : ShiftState} {ax ay : Int} {now : UInt32}
    {doubleClick : Int} {c c' : Control T} (hoff : c.drag = ⟨false, false, false⟩)
    (hc : c.step A (.mouseDown button shift ax ay now doubleClick) = some c') :
    c'.drag = ⟨false, false, false⟩ ∨
      c'.sent = [] ∧ (c'.drag = ⟨true, false, false⟩ ∨ c'.drag = ⟨false, true, false⟩) := by
  have hdrag := Control.drag_mouseDown (A := A) (c := c.clearSent) button shift ax ay now
    doubleClick
  have hsent := Control.mouseDown_sent (A := A) (c := c.clearSent) button shift ax ay now
    doubleClick rfl
  have hoff' : c.clearSent.drag = ⟨false, false, false⟩ := hoff
  cases hc
  rw [hoff'] at hdrag
  rw [hsent]
  exact hdrag

theorem openPress_held (s : Gestures T) (c : Control T) (button : MouseButton) (k : Consumer)
    (reports : List (MouseButton × Bool)) :
    openPress { s with control := c, held := some (button, k), reports := reports } =
      if k = .report then [(button, true)] else [] := by
  cases k <;> rfl

theorem taker_off (sent : List Sent) :
    taker sent ⟨false, false, false⟩ ≠ .selection ∧ taker sent ⟨false, false, false⟩ ≠ .thumb := by
  cases sent with
  | nil => decide
  | cons x l => exact ⟨nofun, nofun⟩

/-- A press, with nothing held. -/
theorem sound_press {button : MouseButton} {shift : ShiftState} {ax ay : Int} {now : UInt32}
    {doubleClick : Int} {c : Control T} (hs : s.Sound) (hheld : s.held = none)
    (hc : s.control.step A (.mouseDown button shift ax ay now doubleClick) = some c) :
    Sound { s with
      control := c
      held := some (button, taker c.sent c.drag)
      reports := s.reports ++ if c.sent = [] then [] else [(button, true)] } := by
  have hdrag := press_drag (hs.captured.idle hheld) hc
  -- a reported press waits at the end for its release
  have hpaired : ∃ l, Paired l ∧ (s.reports ++ if c.sent = [] then [] else [(button, true)]) =
      l ++ if taker c.sent c.drag = .report then [(button, true)] else [] := by
    rcases hs.paired with ⟨l, hl, hreports⟩
    rw [openPress, hheld, List.append_nil] at hreports
    refine ⟨l, hl, ?_⟩
    rw [hreports]
    by_cases hsent : c.sent = [] <;> simp [taker_eq_report_iff, hsent]
  refine ⟨hs.same, by rw [openPress_held]; exact hpaired, ?_, ?_, ?_⟩
  -- who takes the press is who drags after it
  · show c.drag.selecting = decide (taker c.sent c.drag = .selection)
    rcases hdrag with hdrag | ⟨hsent, hdrag | hdrag⟩
    · rw [hdrag, decide_eq_false (taker_off _).1]
    · simp [hdrag, hsent, taker, Drag.consumer]
    · simp [hdrag, hsent, taker, Drag.consumer]
  · show c.drag.thumb = decide (taker c.sent c.drag = .thumb)
    rcases hdrag with hdrag | ⟨hsent, hdrag | hdrag⟩
    · rw [hdrag, decide_eq_false (taker_off _).2]
    · simp [hdrag, hsent, taker, Drag.consumer]
    · simp [hdrag, hsent, taker, Drag.consumer]
  · show c.drag.timer = true → _
    intro htimer
    rcases hdrag with hdrag | ⟨-, hdrag | hdrag⟩ <;> (rw [hdrag] at htimer; cases htimer)

/-- A release goes where its press went exactly when it is tracked alike. -/
theorem taker_release_iff {button : MouseButton} {shift : ShiftState} {ax ay : Int}
    {c : Control T} (hs : s.Sound)
    (hc : s.control.step A (.mouseUp button shift ax ay) = some c) :
    s.holder = taker c.sent s.control.drag ↔
      s.control.tracks A (.mouseUp button shift ax ay) = decide (s.holder = .report) := by
  have hsent := sent_of_step (a := .mouseUp button shift ax ay) rfl hc
  by_cases hholder : s.holder = .report
  · rw [hholder, eq_comm, taker_eq_report_iff, ne_eq, hsent]
    simp
  · rw [decide_eq_false hholder, ← hsent]
    constructor
    · intro htaker
      rw [htaker, taker_eq_report_iff, not_not] at hholder
      exact hholder
    · intro hnone
      rw [taker, if_pos hnone, hs.consumer_eq hholder]

/-- A release that is tracked like its press leaves nobody dragging. -/
theorem release_drag {button : MouseButton} {shift : ShiftState} {ax ay : Int} {c : Control T}
    (hs : s.Sound) (hc : s.control.step A (.mouseUp button shift ax ay) = some c)
    (htracks : s.control.tracks A (.mouseUp button shift ax ay) = decide (s.holder = .report)) :
    c.drag = ⟨false, false, false⟩ := by
  have hdrag := Control.drag_mouseUp (A := A) (c := s.control.clearSent) button shift ax ay
  have hreport : (s.control.clearSent.upReport A button shift ax ay).isSome =
      decide (s.holder = .report) :=
    (Control.mouseReport_isSome (A := A) (c := s.control) (.mouseUp button shift ax ay)).trans
      htracks
  cases hc
  show (Control.mouseUp A button shift ax ay s.control.clearSent).drag = _
  rw [hdrag, hreport]
  -- MouseUp ends the drag of the one who has it, and only that
  cases hholder : s.holder with
  | report =>
      rw [if_pos (by simp)]
      exact hs.drag_off (by simp [hholder]) (by simp [hholder])
  | selection =>
      have hselecting : s.control.clearSent.selectingDrag = true :=
        hs.selecting.trans (by simp [hholder])
      have hthumb : s.control.clearSent.scrollDraggingThumb = false :=
        hs.thumb.trans (by simp [hholder])
      simp [hselecting, hthumb]
  | thumb =>
      have hselecting : s.control.clearSent.selectingDrag = false :=
        hs.selecting.trans (by simp [hholder])
      -- the timer runs during selections only
      have htimer : s.control.clearSent.autoScrollTimer = false := by
        rw [Bool.eq_false_iff]
        intro htimer
        have hselecting' := hs.timer htimer
        rw [hs.selecting, hholder] at hselecting'
        cases hselecting'
      simp [hselecting, htimer, Control.drag]
  | other =>
      have hoff := hs.drag_off (by simp [hholder]) (by simp [hholder])
      have hoff' : s.control.clearSent.drag = ⟨false, false, false⟩ := hoff
      have hselecting : s.control.clearSent.selectingDrag = false :=
        congrArg Drag.selecting hoff'
      simp [hselecting, hoff']

/-- The release of the button that is held. -/
theorem sound_release {button : MouseButton} {k : Consumer} {shift : ShiftState} {ax ay : Int}
    {c : Control T} (hs : s.Sound) (hheld : s.held = some (button, k))
    (hc : s.control.step A (.mouseUp button shift ax ay) = some c)
    (htracks : s.control.tracks A (.mouseUp button shift ax ay) = decide (s.holder = .report)) :
    Sound
      { control := c
        held := none
        reports := s.reports ++ if c.sent = [] then [] else [(button, false)]
        ended := s.ended ++ [(k, taker c.sent s.control.drag)] } := by
  have hholder : s.holder = k := by simp [holder, hheld]
  have hoff := release_drag hs hc htracks
  have htaker := (taker_release_iff hs hc).2 htracks
  have hsent := sent_of_step (a := .mouseUp button shift ax ay) rfl hc
  refine ⟨?_, ?_, congrArg Drag.selecting hoff, congrArg Drag.thumb hoff, ?_⟩
  -- the press and its release went to the same
  · intro p hp
    rcases List.mem_append.1 hp with hp | hp
    · exact hs.same p hp
    · cases List.mem_singleton.1 hp
      exact hholder.symm.trans htaker
  · -- the press that waited was reported exactly when the release is
    rcases hs.paired with ⟨l, hl, hreports⟩
    by_cases hreport : k = .report
    · have hsome : c.sent ≠ [] := by
        rw [ne_eq, hsent, htracks, hholder, hreport]
        simp
      refine ⟨l ++ [(button, true), (button, false)], .pair button hl, ?_⟩
      simp [openPress, hreports, hheld, hreport, hsome]
    · have hnone : c.sent = [] := by
        rw [hsent, htracks, hholder, decide_eq_false hreport]
      refine ⟨l, hl, ?_⟩
      cases k with
      | report => exact absurd rfl hreport
      | selection | thumb | other => simp [openPress, hreports, hheld, hnone]
  · intro htimer
    have hnone : c.drag.timer = false := congrArg Drag.timer hoff
    exact absurd htimer (by rw [hnone]; simp)

/-- Any other message. -/
theorem sound_other {c : Control T} (hs : s.Sound) (ha : a.button = false)
    (hc : s.control.step A a = some c) : Sound { s with control := c } := by
  rcases Control.drag_handle ha hc with ⟨hselecting, hthumb, htimer⟩
  refine ⟨hs.same, hs.paired, hselecting.trans hs.selecting, hthumb.trans hs.thumb, fun h => ?_⟩
  refine hselecting.trans ?_
  rcases htimer h with htimer | htimer
  · exact hs.timer htimer
  · exact htimer

theorem step_other (ha : a.button = false) :
    s.step A a = (s.control.step A a).map fun c => { s with control := c } := by
  cases a with
  | mouseDown | mouseUp => cases ha
  | _ => rfl

theorem sound_step (hstep : s.step A a = some s') (hs : s.Sound) (hC : TrackedAlike A a s) :
    s'.Sound := by
  cases a with
  | mouseDown button shift ax ay now doubleClick =>
      simp only [step] at hstep
      split at hstep
      · rcases Option.map_eq_some_iff.1 hstep with ⟨c, hc, rfl⟩
        exact sound_press hs (by assumption) hc
      · cases hstep
  | mouseUp button shift ax ay =>
      simp only [step] at hstep
      split at hstep
      · cases hstep
      · split at hstep
        · rename_i hheld hbutton
          subst hbutton
          rcases Option.map_eq_some_iff.1 hstep with ⟨c, hc, rfl⟩
          exact sound_release hs hheld hc (hC rfl)
        · cases hstep
  | _ =>
      rw [step_other rfl] at hstep
      rcases Option.map_eq_some_iff.1 hstep with ⟨c, hc, rfl⟩
      exact sound_other hs rfl hc

theorem trackedAlike_of_captured (hstep : s.step A a = some s') (hs : s.Sound)
    (hs' : s'.Captured) : TrackedAlike A a s := by
  cases a with
  | mouseUp button shift ax ay =>
      simp only [step] at hstep
      split at hstep
      · cases hstep
      · split at hstep
        · rename_i hheld hbutton
          rcases Option.map_eq_some_iff.1 hstep with ⟨c, hc, rfl⟩
          have hsame := hs'.same _ (List.mem_append_right s.ended (List.mem_singleton.2 rfl))
          refine fun _ => (taker_release_iff hs hc).1 (Eq.trans ?_ hsame)
          simp [holder, hheld]
        · cases hstep
  | _ => exact fun ha => by cases ha

/-! ## Runs -/

/-- A new control. -/
def opened (cellW cellH clientWidth clientHeight : Int) : Gestures T :=
  ⟨Control.create cellW cellH clientWidth clientHeight, none, [], []⟩

/-- In a run, each release goes where its press went exactly when each is tracked if
and only if its press was reported. -/
theorem captured_iff (A : Alacritty T R) (cellW cellH clientWidth clientHeight : Int)
    (as : List Label) :
    (machine A).Along Captured (opened cellW cellH clientWidth clientHeight) as ↔
      (machine A).Meets (TrackedAlike A) (opened cellW cellH clientWidth clientHeight) as := by
  refine Lts.Machine.along_iff_meets_of (J := Sound) (fun s hs => hs.captured) ?_ ?_ as ?_
  · exact fun a s s' hstep hs hC => sound_step hstep hs hC
  · exact fun a s s' hstep hs hs' => trackedAlike_of_captured hstep hs hs'
  · exact ⟨nofun, ⟨[], .nil, rfl⟩, rfl, rfl, nofun⟩

/-- A selection is begun, the shell asks for the mouse with `ESC [ ? 1000 h`, and the
button is let go. -/
def selectedAndTracked : List Label :=
  [.start 100, .mouseDown .mbLeft ⟨false, false, false, true, false, false⟩ 10 10 1000 500,
   .output [[0x1B, 0x5B, 0x3F, 0x31, 0x30, 0x30, 0x30, 0x68]],
   .mouseUp .mbLeft ⟨false, false, false, false, false, false⟩ 10 10]

/-- The release is reported without a press, and the selection goes on. -/
theorem capture_lost : ∃ s, (machine plain).Reachable (fun _ _ => True) s ∧
    s.held = none ∧ s.control.selectingDrag = true ∧ s.reports = [(.mbLeft, false)] ∧
      ¬ s.Captured := by
  have hinit : (machine plain).Init (opened 8 16 172 32) := ⟨⟨8, 16, 172, 32, rfl⟩, rfl, rfl, rfl⟩
  have hmeets : (machine plain).Meets (fun _ _ => True) (opened 8 16 172 32)
      selectedAndTracked := by
    decide +kernel
  have htest : ((machine plain).run (opened 8 16 172 32) selectedAndTracked).any
      (fun s => decide (s.held = none ∧ s.control.selectingDrag = true ∧
        s.reports = [(.mbLeft, false)])) = true := by
    decide +kernel
  rcases Lts.Machine.exists_reachable _ _ hinit hmeets htest with ⟨s, -, hreach, hs⟩
  rcases of_decide_eq_true hs with ⟨hheld, hselecting, hreports⟩
  refine ⟨s, hreach, hheld, hselecting, hreports, fun hcaptured => ?_⟩
  have hoff : s.control.selectingDrag = false :=
    congrArg Drag.selecting (hcaptured.idle hheld)
  rw [hoff] at hselecting
  cases hselecting

end Gestures

end RataShell.Input
