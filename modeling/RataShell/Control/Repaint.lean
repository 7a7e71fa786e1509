import RataShell.Control.Geometry
import RataShell.Control.Paint

/-!
# Repainting

A window is out of date if `Paint` would draw it otherwise and nothing has invalidated it.

* `handle_seen`, `aside_quiet`: a message that does not invalidate the window changes nothing
  that `Paint` reads, but for three of them.
* `refit_paint_iff`, `predict_paint_iff`: when those three are seen.
* `current_iff`: the runs in which the window is never out of date.
-/

namespace RataShell.Input.Repaint

open Control Window
open Cursor (Rect cursorRect hangulCellWidth)
open Geometry (sizing sizing_mouseDown sizing_part)
open Term (Alacritty Plain plain)

variable {T R : Type}

/-! ## What `Paint` reads of the control -/

/-- The control with what `Paint` reads, and nothing else. -/
def seen (c : Control T) : Control T :=
  { create c.cellW c.cellH c.clientWidth c.clientHeight with
    scrollOffset := c.scrollOffset
    scrollMax := c.scrollMax
    scrollDraggingThumb := c.scrollDraggingThumb
    lastCells := c.lastCells
    lastCols := c.lastCols
    lastRows := c.lastRows
    rows := c.rows }

theorem paint_seen (w : Window T) : { w with control := seen w.control }.paint = w.paint := rfl

/-- A control that is seen alike is drawn alike. -/
theorem paint_congr (w : Window T) {c : Control T} (h : seen c = seen w.control) (invalid : Bool) :
    { w with control := c, invalid := invalid }.paint = w.paint :=
  calc { w with control := c, invalid := invalid }.paint
      = { w with control := seen c }.paint := rfl
    _ = { w with control := seen w.control }.paint := by rw [h]
    _ = w.paint := paint_seen w

theorem aside_seen : Aside (seen (T := T)) := fun _ _ _ _ => rfl

variable {A : Alacritty T R} {c c' : Control T}

theorem scrollByLines_seen {lines : Int} (h : scrolls lines c = false) :
    c.scrollByLines A lines = c := by
  refine if_pos ?_
  rcases Bool.and_eq_false_iff.1 h with hnone | hzero
  · left
    simpa using hnone
  · right
    simpa using hzero

theorem searchNext_seen (pattern : String) (forward : Bool) :
    seen (c.searchNext A pattern forward) = seen c := by
  unfold Control.searchNext
  split
  · rfl
  · exact aside_seen.call _

theorem perform_seen (k : KeyAction) : seen (c.perform A k) = seen c := by
  cases k with
  | ignore | copySelection | showSearchDialog => rfl
  | searchAgain forward => exact searchNext_seen c.lastSearchPattern forward
  | toggleViMode | viMotion kind | viScroll lines => exact aside_seen.call _
  | sendText text => exact aside_seen.sendText text
  | forward vk mods => exact aside_seen.forwardKey vk mods

theorem sendMouseSequence_seen (r : Report) (press : Bool) :
    seen (c.sendMouseSequence A r press) = seen c := by
  unfold Control.sendMouseSequence
  split <;> rfl

theorem dragSelection_seen (ax ay : Int) : seen (c.dragSelection A ax ay) = seen c := by
  have hdir : seen (if ay < 0 then
        { c with autoScrollDir := -1, autoScrollLastX := ax, autoScrollTimer := true }
      else if c.clientHeight < ay then
        { c with autoScrollDir := 1, autoScrollLastX := ax, autoScrollTimer := true }
      else { c with autoScrollTimer := false, autoScrollDir := 0 }) = seen c := by
    split_ifs <;> rfl
  unfold Control.dragSelection
  extract_lets c'
  split
  · exact (aside_seen.call _).trans hdir
  · exact hdir

theorem clickScrollBar_seen {ay : Int} (h : clickInvalidates ay c = false) :
    c.clickScrollBar A ay = c := by
  unfold clickInvalidates at h
  unfold Control.clickScrollBar
  split
  · rfl
  · next hmax =>
      rw [if_neg hmax] at h
      split at h
      · cases h
      · next hthumb =>
          rw [if_neg hthumb]
          exact scrollByLines_seen h

theorem mouseDown_seen {w : Window T} {button : MouseButton} {shift : ShiftState} {ax ay : Int}
    {now : UInt32} {doubleClick : Int}
    (hquiet : w.invalidates A (.mouseDown button shift ax ay now doubleClick) = false) :
    seen (w.control.mouseDown A button shift ax ay now doubleClick) = seen w.control := by
  unfold Control.mouseDown
  split
  · rfl
  · next hlink =>
      split
      · exact sendMouseSequence_seen _ _
      · next hreport =>
          split
          · next hleft =>
              split
              · next hbar =>
                  split
                  · rfl
                  · split
                    · exact aside_seen.call _
                    · rfl
              · next hbar =>
                  split
                  · next hright =>
                      refine congrArg seen (clickScrollBar_seen ?_)
                      subst hleft
                      rw [Bool.not_eq_true] at hlink
                      rw [invalidates_mouseDown] at hquiet
                      simpa [hlink, hreport, hbar, hright] using hquiet
                  · rfl
          · rfl

theorem mouseMove_seen {w : Window T} {shift : ShiftState} {ax ay : Int}
    (hquiet : w.invalidates A (.mouseMove shift ax ay) = false) :
    seen (w.control.mouseMove A shift ax ay) = seen w.control := by
  unfold Control.mouseMove
  split
  · exact sendMouseSequence_seen _ _
  · next hreport =>
      split_ifs with hdrag hthumb
      · exact dragSelection_seen ax ay
      · rw [dragThumb_eq]
        refine congrArg seen (scrollByLines_seen ?_)
        have h := (Bool.or_eq_false_iff.1 hquiet).2
        simpa [hreport, hdrag, hthumb] using h
      · rfl

theorem mouseUp_seen {w : Window T} {button : MouseButton} {shift : ShiftState} {ax ay : Int}
    (hquiet : w.invalidates A (.mouseUp button shift ax ay) = false) :
    seen (w.control.mouseUp A button shift ax ay) = seen w.control := by
  unfold Control.mouseUp
  split
  · exact sendMouseSequence_seen _ _
  · next hreport =>
      split
      · rfl
      · next hdrag =>
          rw [invalidates_mouseUp] at hquiet
          have hthumb : w.control.scrollDraggingThumb = false := by
            simpa [hreport, hdrag] using hquiet
          simp only [seen, hthumb]

theorem doMouseWheel_seen {w : Window T} {shift : ShiftState} {delta ax ay : Int}
    (hquiet : w.invalidates A (.mouseWheel shift delta ax ay) = false) :
    seen (w.control.doMouseWheel A shift delta ax ay) = seen w.control := by
  unfold Control.doMouseWheel
  split
  · split
    · exact sendMouseSequence_seen _ _
    · rfl
  · next htracking =>
      rw [invalidates_mouseWheel] at hquiet
      have hsession : w.control.session.isSome = false := by simpa [htracking] using hquiet
      exact congrArg seen (scrollByLines_seen (by rw [scrolls, hsession, Bool.false_and]))

theorem doAutoScrollTick_seen {w : Window T} (hquiet : w.invalidates A .autoScrollTick = false) :
    seen (w.control.doAutoScrollTick A) = seen w.control := by
  unfold Control.doAutoScrollTick
  split
  · rfl
  · next hdrag =>
      simp only [Bool.not_eq_true', not_or, Bool.not_eq_false] at hdrag
      rw [invalidates_autoScrollTick] at hquiet
      have hsession : w.control.session.isSome = false := by
        simpa [hdrag.1, hdrag.2] using hquiet
      rw [scrollByLines_seen (by rw [scrolls, hsession, Bool.false_and])]
      extract_lets c
      split
      · exact aside_seen.call _
      · rfl

theorem method_seen {w : Window T} {op : Term.Op} (hquiet : w.invalidates A (.method op) = false)
    (hstep : w.control.method A op = some c') : seen c' = seen w.control := by
  have hnone : w.control.session.isSome = false → ∀ op, w.control.call A op = w.control ∧
      w.control.updateScrollInfo A = w.control := by
    intro h op
    have hsession : w.control.session = none := by simpa using h
    constructor
    · simp only [Control.call, hsession]
    · simp only [updateScrollInfo, hsession]
  cases op with
  | resize cols rows => cases hstep
  | scroll lines | scrollToTop | scrollToBottom | clearHistory =>
      cases hstep
      have h := hnone hquiet
      refine congrArg seen (Eq.trans ?_ (h .scrollToTop).2)
      exact congrArg (Control.updateScrollInfo A) (h _).1
  | resetState | selectionStart col row kind | selectionExtend col row | selectionClear
  | toggleViMode | viMotion kind =>
      cases hstep
      exact aside_seen.call _
  | searchNext pattern forward =>
      cases hstep
      exact searchNext_seen pattern forward

/-- The messages at which the cursor is predicted or the painter resized. -/
def Special : Label → Prop
  | .imeComposition _ | .start _ | .wmSize _ _ => True
  | _ => False

/-- A message that does not invalidate the window leaves alone what `Paint` reads of the
control. -/
theorem handle_seen {w : Window T} {a : Label} (ha : ¬ Special a)
    (hquiet : w.invalidates A a = false) (hstep : w.control.handle A a = some c') :
    seen c' = seen w.control := by
  cases a with
  | output chunks =>
      simp only [Control.handle, Option.ite_none_right_eq_some, Option.some.injEq] at hstep
      rcases hstep with ⟨-, rfl⟩
      unfold Control.output
      split <;> rfl
  | keyDown vk mods clipboard | sysKeyDown vk mods clipboard | char unit =>
      cases hstep
      exact perform_seen _
  | imeChar | imeStartComposition | imeEndComposition | wmRataExit | hideSearchBar | stop
  | setReadOnly value =>
      cases hstep
      rfl
  | mouseDown button shift ax ay now doubleClick =>
      cases hstep
      exact mouseDown_seen hquiet
  | mouseMove shift ax ay =>
      cases hstep
      exact mouseMove_seen hquiet
  | mouseUp button shift ax ay =>
      cases hstep
      exact mouseUp_seen hquiet
  | mouseWheel shift delta ax ay =>
      cases hstep
      exact doMouseWheel_seen hquiet
  | wmRataRender =>
      cases hstep
      rw [invalidates_wmRataRender] at hquiet
      have hnone : w.control.pendingEvent = none := by simpa using hquiet
      simp only [Control.handleRenderMessage, hnone]
  | autoScrollTick =>
      simp only [Control.handle, Option.ite_none_right_eq_some, Option.some.injEq] at hstep
      rcases hstep with ⟨-, rfl⟩
      exact doAutoScrollTick_seen hquiet
  | searchBarAgain forward =>
      simp only [Control.handle, Option.ite_none_right_eq_some, Option.some.injEq] at hstep
      rcases hstep with ⟨-, rfl⟩
      exact perform_seen (.searchAgain forward)
  | sendText text =>
      cases hstep
      exact aside_seen.sendText text
  | sendKey vk mods =>
      cases hstep
      unfold Control.sendKey
      split <;> rfl
  | method op => exact method_seen hquiet hstep
  | fontChanged cellW cellH | searchEditChange pattern => cases hquiet
  | imeComposition result | start scrollback | wmSize width height => exact absurd trivial ha

theorem searched_quiet {w : Window T} (search : Option (String × Bool))
    (h : (search.any fun search => decide (search.1 ≠ "")) = false) :
    w.searched A search = w := by
  rcases search with _ | ⟨pattern, forward⟩
  · rfl
  · have hempty : pattern = "" := by simpa using h
    rw [hempty]
    rfl

/-- It leaves the rest of the window alone, too. -/
theorem aside_quiet {w : Window T} {a : Label} (ha : ¬ Special a)
    (hquiet : w.invalidates A a = false) : w.aside A a = w := by
  cases a with
  | keyDown vk mods clipboard | sysKeyDown vk mods clipboard | char unit =>
      exact searched_quiet _ hquiet
  | searchBarAgain forward =>
      exact searched_quiet (some (w.control.lastSearchPattern, forward)) hquiet
  | mouseMove shift ax ay =>
      have hhover : w.control.moveHover A shift ax ay w.hover = w.hover := by
        simpa using (Bool.or_eq_false_iff.1 hquiet).1
      simp only [aside, hhover]
  | wmRataRender =>
      rw [invalidates_wmRataRender] at hquiet
      have hnone : w.control.pendingEvent = none := by simpa using hquiet
      simp only [aside, hnone]
  | hideSearchBar => exact if_neg (Bool.eq_false_iff.1 hquiet)
  | fontChanged cellW cellH | searchEditChange pattern => cases hquiet
  | imeComposition result | start scrollback | wmSize width height => exact absurd trivial ha
  | _ => rfl

/-! ## Resizing and predicting -/

theorem recreate_pos (cols rows cellW cellH : Int) (bg : UInt32) (b : BackBuffer) :
    0 < (b.recreate cols rows cellW cellH bg).width ∧
      0 < (b.recreate cols rows cellW cellH bg).height := by
  unfold BackBuffer.recreate
  split
  · exact ⟨by simp, by simp⟩
  · next h =>
      push Not at h
      rw [h.1, h.2]
      exact ⟨by simp, by simp⟩

/-- `Paint` copies the back buffer first, if there is one. -/
theorem background_head {w : Window T} (h : ¬ (w.buffer.width = 0 ∨ w.buffer.height = 0)) :
    ∃ rest, w.background =
      .bitBlt w.buffer ⟨0, 0, w.control.clientWidth, w.control.clientHeight⟩ :: rest :=
  ⟨_, if_neg h⟩

/-- A window that is drawn alike has the same back buffer. -/
theorem background_buffer {w w' : Window T} (hw' : 0 < w'.buffer.width ∧ 0 < w'.buffer.height)
    {rest rest' : List Command} (h : w'.background ++ rest' = w.background ++ rest) :
    w'.buffer = w.buffer := by
  rcases background_head (w := w') (by omega) with ⟨fill', hback'⟩
  rw [hback'] at h
  -- without a back buffer the window was filled instead
  by_cases hempty : w.buffer.width = 0 ∨ w.buffer.height = 0
  · have hback : w.background = [.fillRect ⟨0, 0, w.control.clientWidth,
      w.control.clientHeight⟩ w.colors.defaultBg] := if_pos hempty
    rw [hback] at h
    cases (List.cons.inj h).1
  · rcases background_head hempty with ⟨fill, hback⟩
    rw [hback] at h
    exact (Command.bitBlt.inj (List.cons.inj h).1).1

/-- A resize of the painter is seen unless it is settled. -/
theorem refit_paint_iff (w : Window T) : w.refit.paint = w.paint ↔ Settled w := by
  have hpaint : ∀ w : Window T, w.paint = w.background ++
      (((w.control.hyperlinkOverlay w.hover).map .line ++ w.matchBox ++ w.cursorOverlay) ++
        w.scrollBar) := by
    intro w
    simp only [paint, List.append_assoc]
  -- what is drawn between the back buffer and the scroll bar does not read the size in cells
  have hmid : (w.refit.control.hyperlinkOverlay w.refit.hover).map Command.line ++
      w.refit.matchBox ++ w.refit.cursorOverlay =
        (w.control.hyperlinkOverlay w.hover).map Command.line ++ w.matchBox ++ w.cursorOverlay :=
    rfl
  have hback : w.refit.buffer = w.buffer → w.refit.background = w.background := by
    intro h
    unfold background
    rw [h]
    rfl
  rw [hpaint, hpaint, hmid]
  constructor
  · intro h
    have hbuffer := background_buffer (recreate_pos _ _ _ _ _ w.buffer) h
    rw [hback hbuffer] at h
    exact ⟨hbuffer, List.append_cancel_left (List.append_cancel_left h)⟩
  · rintro ⟨hbuffer, hbar⟩
    rw [hback hbuffer, hbar]

theorem cursorRect_inj {cellW cellH : Nat} (hw : 0 < cellW) (hh : 0 < cellH) {style : UInt8}
    {x y x' y' : Nat} (h : cursorRect cellW cellH style x y = cursorRect cellW cellH style x' y') :
    x = x' ∧ y = y' := by
  have hleft : ∀ x y, (cursorRect cellW cellH style x y).left = x * cellW := by
    intro x y
    unfold cursorRect
    split_ifs <;> rfl
  have hbottom : ∀ x y, (cursorRect cellW cellH style x y).bottom = y * cellH + cellH := by
    intro x y
    unfold cursorRect
    split_ifs <;> rfl
  have hx := congrArg Rect.left h
  have hy := congrArg Rect.bottom h
  rw [hleft, hleft] at hx
  rw [hbottom, hbottom] at hy
  constructor
  · exact Nat.eq_of_mul_eq_mul_right hw (by exact_mod_cast hx)
  · exact Nat.eq_of_mul_eq_mul_right hh (by exact_mod_cast add_right_cancel hy)

theorem hangulCellWidth_pos {text : Text} (h : text ≠ []) : 0 < hangulCellWidth text := by
  cases text with
  | nil => exact absurd rfl h
  | cons u text =>
      simp only [hangulCellWidth, List.map_cons, List.sum_cons]
      split <;> omega

/-- A predicted cursor is seen in the off phase. -/
theorem predict_paint_iff {w : Window T} (hw : 0 < w.control.cellW) (hh : 0 < w.control.cellH)
    {text : Text} (htext : text ≠ []) : (w.predict text).paint = w.paint ↔ ¬ w.OffPhase := by
  have hpaint : (w.predict text).paint = w.background ++
      (w.control.hyperlinkOverlay w.hover).map .line ++ w.matchBox ++
        (w.predict text).cursorOverlay ++ w.scrollBar := by
    unfold predict
    extract_lets x
    split <;> rfl
  have hphase : (w.predict text).OffPhase ↔ w.OffPhase := by
    unfold predict
    extract_lets x
    split <;> exact Iff.rfl
  rw [hpaint]
  constructor
  · intro h hoff
    have hoverlay : (w.predict text).cursorOverlay = w.cursorOverlay :=
      List.append_cancel_left (List.append_cancel_right h)
    -- the prediction wraps into the next row, or goes right by a cell at least
    have hmoved : (w.predict text).lastX ≠ w.lastX ∨ (w.predict text).lastY ≠ w.lastY := by
      have hpos := hangulCellWidth_pos htext
      unfold predict
      extract_lets x
      split
      · exact .inr (Nat.succ_ne_self _)
      · exact .inl (Nat.ne_of_gt (Nat.lt_add_of_pos_right hpos))
    have hsame : (w.predict text).control = w.control ∧
        (w.predict text).lastStyle = w.lastStyle := by
      unfold predict
      extract_lets x
      split <;> exact ⟨rfl, rfl⟩
    simp only [cursorOverlay, if_pos hoff, if_pos (hphase.2 hoff), hsame.1, hsame.2,
      List.cons.injEq, Command.invertRect.injEq, and_true] at hoverlay
    rcases cursorRect_inj (by omega) (by omega) hoverlay with ⟨hx, hy⟩
    rcases hmoved with hmoved | hmoved
    · exact hmoved hx
    · exact hmoved hy
  · intro hon
    have hoverlay : (w.predict text).cursorOverlay = w.cursorOverlay := by
      simp only [cursorOverlay, if_neg hon, if_neg (mt hphase.1 hon)]
    rw [hoverlay]
    rfl

/-! ## Runs -/

def cells (c : Control T) : Int × Int := (c.cellW, c.cellH)

theorem sized_congr (h : cells c' = cells c) (hc : Sized c) : Sized c' := by
  simp only [cells, Prod.mk.injEq] at h
  exact ⟨h.1 ▸ hc.1, h.2 ▸ hc.2⟩

theorem cells_aside : Aside (cells (T := T)) := fun _ _ _ _ => rfl

theorem cells_congr (h : sizing c' = sizing c) : cells c' = cells c :=
  congrArg (fun s => (s.cellW, s.cellH)) h

/-- No message but a change of the font changes the size of the cells. -/
theorem handle_cells {a : Label} (ha : ∀ cellW cellH, a ≠ .fontChanged cellW cellH)
    (hstep : c.handle A a = some c') : cells c' = cells c := by
  by_cases hout : a.outward = false
  · exact cells_congr (sizing_part.handle hout hstep)
  · cases a with
    | mouseDown button shift ax ay now doubleClick =>
        cases hstep
        exact cells_congr (sizing_mouseDown button shift ax ay now doubleClick c)
    | wmRataRender =>
        cases hstep
        unfold Control.handleRenderMessage
        split
        · rfl
        · exact (cells_congr sizing_part.updateScrollInfo).trans rfl
    | wmSize width height =>
        cases hstep
        exact cells_aside.call _
    | fontChanged cellW cellH => exact absurd rfl (ha cellW cellH)
    | start scrollback =>
        cases hstep
        unfold Control.start
        split <;> rfl
    | stop =>
        cases hstep
        rfl
    | _ => exact absurd rfl hout

theorem step_sized {a : Action} {w w' : Window T} (hstep : w.step A a = some w')
    (hw : Sized w.control) : Sized w'.control := by
  cases a with
  | message a =>
      simp only [Window.step, message, Option.ite_none_right_eq_some,
        Option.map_eq_some_iff] at hstep
      rcases hstep with ⟨hmeasured, c, hc, rfl⟩
      by_cases hfont : ∀ cellW cellH, a ≠ .fontChanged cellW cellH
      · have hcells := handle_cells hfont hc
        exact sized_congr hcells hw
      · push Not at hfont
        rcases hfont with ⟨cellW, cellH, rfl⟩
        cases hc
        exact sized_congr (c := { w.control with cellW := cellW, cellH := cellH })
          (cells_aside.call _) hmeasured
  | paint | blinkTick =>
      simp only [Window.step, Option.ite_none_right_eq_some, Option.some.injEq] at hstep
      rcases hstep with ⟨-, rfl⟩
      exact hw
  | setCursorBlink value =>
      cases hstep
      exact hw

/-- A message that is not special. -/
theorem message_current {w : Window T} {a : Label} (ha : ¬ Special a) (hw : w.Current)
    (hstep : w.control.step A a = some c') :
    Current { w.aside A a with control := c', invalid := w.invalid || w.invalidates A a } := by
  cases hinvalid : w.invalidates A a with
  | true => exact .inl (Bool.or_true _)
  | false =>
      rcases hw with hw | hw
      · exact .inl (by rw [hw]; rfl)
      · have hseen : seen c' = seen w.control :=
          handle_seen (w := { w with control := w.control.clearSent }) ha hinvalid hstep
        right
        rw [aside_quiet ha hinvalid]
        exact hw.trans (paint_congr w hseen _).symm

/-- A message that does not invalidate a window that is up to date. -/
theorem current_message_iff {w v : Window T} {a : Label} (hinvalid : w.invalid = false)
    (hquiet : w.invalidates A a = false) (hw : w.shown = w.paint) (hshown : v.shown = w.shown)
    (hseen : seen c' = seen v.control) :
    Current { v with control := c', invalid := w.invalid || w.invalidates A a } ↔
      v.paint = w.paint := by
  have hpaint := paint_congr v hseen (w.invalid || w.invalidates A a)
  constructor
  · rintro (h | h)
    · rw [hinvalid, hquiet] at h
      cases h
    · rw [← hpaint, ← hw, ← hshown]
      exact h.symm
  · intro h
    right
    exact hshown.trans (hw.trans (h.symm.trans hpaint.symm))

theorem predict_shown (text : Text) (w : Window T) : (w.predict text).shown = w.shown := by
  unfold predict
  extract_lets x
  split <;> rfl

theorem predict_control (text : Text) (w : Window T) : (w.predict text).control = w.control := by
  unfold predict
  extract_lets x
  split <;> rfl

/-- `WMImeComposition`. -/
theorem imeComposition_current_iff {w : Window T} {result : Option Text}
    (hsized : Sized w.control) (hinvalid : w.invalid = false) (hw : w.shown = w.paint)
    (hstep : w.control.step A (.imeComposition result) = some c') :
    Current { w.aside A (.imeComposition result) with
      control := c', invalid := w.invalid || w.invalidates A (.imeComposition result) } ↔
        (Commits result w.control → ¬ w.OffPhase) := by
  cases hstep
  have hseen : seen (w.control.clearSent.wmImeComposition A result) = seen w.control :=
    perform_seen (c := w.control.clearSent) _
  have hquiet : w.invalidates A (.imeComposition result) = false := by
    show ((w.control.imeAction result).search _).any _ = false
    unfold imeAction
    split
    · rfl
    · split <;> rfl
  by_cases hcommits : Commits result w.control
  · have haside : w.aside A (.imeComposition result) = w.predict (result.getD []) :=
      if_pos hcommits
    rcases hcommits.1 with ⟨text, rfl, htext⟩
    have hcontrol := congrArg seen (predict_control text w).symm
    rw [haside]
    refine (current_message_iff (v := w.predict text) hinvalid hquiet hw (predict_shown text w)
      (hseen.trans hcontrol)).trans ?_
    rw [predict_paint_iff hsized.1 hsized.2 htext]
    exact ⟨fun h _ => h, fun h => h hcommits⟩
  · have haside : w.aside A (.imeComposition result) = w := if_neg hcommits
    rw [haside]
    exact (current_message_iff hinvalid hquiet hw rfl hseen).trans
      (iff_of_true rfl fun h => absurd h hcommits)

/-- `Start`. -/
theorem start_current_iff {w : Window T} {scrollback : UInt32} (hinvalid : w.invalid = false)
    (hw : w.shown = w.paint) (hstep : w.control.step A (.start scrollback) = some c') :
    Current { w.aside A (.start scrollback) with
      control := c', invalid := w.invalid || w.invalidates A (.start scrollback) } ↔
        w.control.active = true ∨ Settled w := by
  cases hstep
  by_cases hactive : w.control.active = true
  · have haside : w.aside A (.start scrollback) = w := if_pos hactive
    have hstart : seen (w.control.clearSent.start A scrollback) = seen w.control := by
      unfold Control.start
      split
      · rfl
      · next h => exact absurd hactive h
    rw [haside]
    exact (current_message_iff hinvalid rfl hw rfl hstart).trans
      (iff_of_true rfl (.inl hactive))
  · have haside : w.aside A (.start scrollback) = w.refit := if_neg hactive
    have hstart : seen (w.control.clearSent.start A scrollback) = seen w.refit.control := by
      unfold Control.start
      split
      · next h => exact absurd h hactive
      · rfl
    rw [haside]
    exact (current_message_iff (v := w.refit) hinvalid rfl hw rfl hstart).trans
      ((refit_paint_iff w).trans (or_iff_right hactive).symm)

/-- `WMSize`. -/
theorem wmSize_current_iff {w : Window T} {width height : Int} (hinvalid : w.invalid = false)
    (hw : w.shown = w.paint) (hstep : w.control.step A (.wmSize width height) = some c') :
    Current { w.aside A (.wmSize width height) with
      control := c', invalid := w.invalid || w.invalidates A (.wmSize width height) } ↔
        width ≠ w.control.clientWidth ∨ height ≠ w.control.clientHeight ∨ Settled w := by
  cases hstep
  by_cases hsize : width ≠ w.control.clientWidth ∨ height ≠ w.control.clientHeight
  · refine iff_of_true (.inl ?_) (or_assoc.1 (.inl hsize))
    rw [invalidates_wmSize, decide_eq_true hsize, Bool.or_true]
  · have hquiet : w.invalidates A (.wmSize width height) = false := decide_eq_false hsize
    push Not at hsize
    rcases hsize with ⟨rfl, rfl⟩
    have haside : w.aside A (.wmSize w.control.clientWidth w.control.clientHeight) = w.refit := rfl
    have hresize : seen ({ w.control.clearSent with
        clientWidth := w.control.clientWidth
        clientHeight := w.control.clientHeight }.applyResize A) = seen w.refit.control :=
      aside_seen.call _
    rw [haside]
    refine (current_message_iff (v := w.refit) hinvalid hquiet hw rfl hresize).trans ?_
    rw [refit_paint_iff]
    simp

theorem step_current_iff {a : Action} {w w' : Window T} (hstep : w.step A a = some w')
    (hsized : Sized w.control) (hw : w.Current) : w'.Current ↔ Kept a w := by
  cases a with
  | message a =>
      simp only [Window.step, message, Option.ite_none_right_eq_some,
        Option.map_eq_some_iff] at hstep
      rcases hstep with ⟨-, c, hc, rfl⟩
      by_cases hinvalid : w.invalid = true
      · exact iff_of_true (.inl (by rw [hinvalid]; rfl)) (.inl hinvalid)
      · have hshown : w.shown = w.paint := hw.resolve_left hinvalid
        have hfalse : w.invalid = false := by simpa using hinvalid
        cases a with
        | imeComposition result =>
            exact (imeComposition_current_iff hsized hfalse hshown hc).trans
              (or_iff_right hinvalid).symm
        | start scrollback =>
            exact (start_current_iff hfalse hshown hc).trans (or_iff_right hinvalid).symm
        | wmSize width height =>
            exact (wmSize_current_iff hfalse hshown hc).trans (or_iff_right hinvalid).symm
        | _ => exact iff_of_true (message_current id hw hc) (.inr trivial)
  | paint =>
      simp only [Window.step, Option.ite_none_right_eq_some, Option.some.injEq] at hstep
      rcases hstep with ⟨-, rfl⟩
      exact iff_of_true (.inr rfl) (.inr trivial)
  | blinkTick =>
      simp only [Window.step, Option.ite_none_right_eq_some, Option.some.injEq] at hstep
      rcases hstep with ⟨-, rfl⟩
      exact iff_of_true (.inl rfl) (.inr trivial)
  | setCursorBlink value =>
      cases hstep
      exact iff_of_true hw (.inr trivial)

/-- In every run the window shows what `Paint` draws now, or is to be repainted, exactly when
no composition is committed while the cursor is off, and the painter has its size already
where it is resized at a start or without a change of the window. -/
theorem current_iff {w : Window T} (hw : (machine A).Init w) (as : List Action) :
    (machine A).Along Current w as ↔ (machine A).Meets Kept w as :=
  Lts.Machine.along_iff_meets (I := fun w => Sized w.control)
    (fun _ _ _ hstep hs => step_sized hstep hs)
    (fun _ _ _ hstep hs hcurrent => step_current_iff hstep hs hcurrent) as hw.2 (.inl hw.1)

/-- A window of 20 by 4 cells. -/
def opened : Window Plain where
  control := create 8 16 172 64
  buffer := ⟨0, 0, 0, []⟩
  colors := ⟨0xCCCCCC, 0x000000⟩
  hover := 0
  matchCol := 0
  matchRow := 0
  matchLen := 0
  cursorBlink := true
  blinkTimer := false
  blinkVisible := true
  lastStyle := 0
  lastX := 0
  lastY := 0
  invalid := true
  shown := []

/-- After `ESC [ 1 SP q` the cursor is a block that blinks; it is off when it was painted
last. -/
def blinkedOff : List Action :=
  [.message (.fontChanged 8 16), .message (.start 100),
   .message (.output [[0x1B, 0x5B, 0x31, 0x20, 0x71]]), .message .wmRataRender, .paint,
   .blinkTick, .paint]

/-- A composition that is committed then leaves the inverted cell where it was. -/
theorem current_iff_composed :
    (machine plain).Along Current opened (blinkedOff ++ [.message (.char 0x61)]) ∧
      ¬ (machine plain).Along Current opened
        (blinkedOff ++ [.message (.imeComposition (some [0xAC00]))]) := by
  have hinit : (machine plain).Init opened := ⟨rfl, by decide, by decide⟩
  constructor
  · refine (current_iff hinit _).2 ?_
    decide +kernel
  · refine mt (current_iff hinit _).1 ?_
    decide +kernel

end RataShell.Input.Repaint
