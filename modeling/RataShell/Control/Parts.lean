import Mathlib.Tactic.Tauto
import RataShell.Control.Messages

/-!
# Parts of the control

Most messages call the session, scroll, drag or send, and nothing else. What holds of the
control before and after each of these holds before and after most messages.

* `Rule`: a relation of the control before to the control after, kept by each of these.
* `Rule.handle`: the messages that keep it; the others search or are listed in
  `Label.outward`.
* `Rule.mouseDown`: a press keeps it too, unless it starts a selection.
* `Part`: a part of the control that none of these changes, and no search does.
-/

namespace RataShell.Input

open Term (Alacritty Op)

variable {T R : Type}

/-- Presses, frames, sizes, starts and stops. -/
def Label.outward : Label → Bool
  | .mouseDown _ _ _ _ _ _ | .wmRataRender | .wmSize _ _ | .fontChanged _ _ | .start _
  | .stop => true
  | _ => false

/-- The search that a message of the keyboard asks for. -/
def KeyAction.search (last : String) : KeyAction → Option (String × Bool)
  | .searchAgain onward => some (last, onward)
  | _ => none

namespace Control

/-- The search that a message makes. -/
def searches (A : Alacritty T R) (a : Label) (c : Control T) : Option (String × Bool) :=
  match a with
  | .keyDown vk mods clipboard | .sysKeyDown vk mods clipboard =>
      (c.keyAction A vk mods clipboard).search c.lastSearchPattern
  | .char unit => (c.charAction A unit).search c.lastSearchPattern
  | .imeComposition result => (c.imeAction result).search c.lastSearchPattern
  | .searchEditChange pattern => some (pattern, true)
  | .searchBarAgain forward => some (c.lastSearchPattern, forward)
  | .method (.searchNext pattern forward) => some (pattern, forward)
  | _ => none

/-- Such a message does nothing else, but that the search bar keeps the pattern. -/
theorem handle_searches {A : Alacritty T R} {a : Label} {c c' : Control T} {pattern : String}
    {forward : Bool} (hsearch : c.searches A a = some (pattern, forward))
    (hstep : c.handle A a = some c') :
    ∃ last, c' = { c with lastSearchPattern := last }.searchNext A pattern forward := by
  have hkey : ∀ k : KeyAction, k.search c.lastSearchPattern = some (pattern, forward) →
      c.perform A k = { c with lastSearchPattern := c.lastSearchPattern }.searchNext A pattern
        forward := by
    intro k hk
    cases k with
    | searchAgain forward' =>
        cases hk
        rfl
    | _ => cases hk
  cases a with
  | keyDown vk mods clipboard | sysKeyDown vk mods clipboard | char unit | imeComposition result =>
      cases hstep
      exact ⟨c.lastSearchPattern, hkey _ hsearch⟩
  | searchEditChange pattern' =>
      cases hsearch
      simp only [handle, Option.ite_none_right_eq_some, Option.some.injEq] at hstep
      rcases hstep with ⟨-, rfl⟩
      refine ⟨pattern, ?_⟩
      unfold searchEditChange
      extract_lets c'
      split
      · next hempty => rw [Control.searchNext, if_pos hempty]
      · rfl
  | searchBarAgain forward' =>
      cases hsearch
      simp only [handle, Option.ite_none_right_eq_some, Option.some.injEq] at hstep
      rcases hstep with ⟨-, rfl⟩
      exact ⟨c.lastSearchPattern, rfl⟩
  | method op =>
      cases op with
      | searchNext pattern' forward' =>
          cases hsearch
          cases hstep
          exact ⟨c.lastSearchPattern, rfl⟩
      | _ => cases hsearch
  | _ => cases hsearch

/-- Where a press starts a selection. -/
def selectionCell (A : Alacritty T R) (button : MouseButton) (shift : ShiftState) (ax ay : Int)
    (c : Control T) : Option (Nat × Nat) :=
  if c.opensLink button shift ax ay ∨ (c.downReport A button shift ax ay).isSome ∨
      ¬ button = .mbLeft ∨ ¬ ax < c.scrollBarLeft ∨ c.isMouseTrackingActive A then none
  else c.mouseToCell ax ay

theorem mouseDown_selection {A : Alacritty T R} {c : Control T} {button : MouseButton}
    {shift : ShiftState} {ax ay : Int} {col row : Nat}
    (hcell : c.selectionCell A button shift ax ay = some (col, row)) (now : UInt32)
    (doubleClick : Int) :
    c.mouseDown A button shift ax ay now doubleClick =
      c.startSelection A shift ax ay col row now doubleClick := by
  unfold selectionCell at hcell
  split at hcell
  · cases hcell
  · next hcond =>
      simp only [not_or, not_not] at hcond
      rcases hcond with ⟨hlink, hreport, hleft, hbar, htracking⟩
      have hnone : c.downReport A button shift ax ay = none := by simpa using hreport
      simp only [mouseDown, if_neg hlink, hnone, if_pos hleft, if_pos hbar, if_neg htracking,
        hcell]

end Control

/-! ## Rules -/

/-- A relation between the control before and after, of which calls of the session that give
a frame, output, sends and the fields for scrolling, searching and dragging are instances. -/
structure Rule (A : Alacritty T R) (rel : Control T → Control T → Prop) : Prop where
  refl : ∀ c, rel c c
  trans : ∀ {c c' c''}, rel c c' → rel c' c'' → rel c c''
  call : ∀ (op : Op) (c : Control T), op.renders = true → rel c (c.call A op)
  updateScrollInfo : ∀ c : Control T, rel c (c.updateScrollInfo A)
  output : ∀ (chunks : List (List UInt8)) (c : Control T), rel c (c.output A chunks)
  sendText : ∀ (bytes : List UInt8) (c : Control T), rel c (c.rataSendText bytes)
  sendKey : ∀ (vk : UInt16) (mods : UInt32) (c : Control T), rel c (c.rataSendKey A vk mods)
  searching : ∀ (bar : Bool) (pattern : String) (c : Control T),
    rel c { c with searchBar := bar, lastSearchPattern := pattern }
  dragging : ∀ (thumb : Bool) (offset : Int) (selecting timer : Bool) (dir lastX : Int)
    (c : Control T), rel c { c with
      scrollDraggingThumb := thumb, scrollThumbDragOffset := offset, selectingDrag := selecting,
      autoScrollTimer := timer, autoScrollDir := dir, autoScrollLastX := lastX }
  flags : ∀ (active readOnly composing : Bool) (c : Control T),
    rel c { c with active := active, readOnly := readOnly, composing := composing }

namespace Rule

open Control

variable {A : Alacritty T R} {rel : Control T → Control T → Prop} (h : Rule A rel)
variable {c c' : Control T}

include h

/-! ## Methods -/

theorem scrollByLines (lines : Int) : rel c (c.scrollByLines A lines) := by
  unfold Control.scrollByLines
  split
  · exact h.refl c
  · exact h.trans (h.call _ _ rfl) (h.updateScrollInfo _)

theorem toLiveEdge : rel c (c.toLiveEdge A) := by
  refine h.trans ?_ (h.call _ _ rfl)
  split
  · exact h.call _ _ rfl
  · exact h.refl c

theorem sendText' (text : Text) : rel c (c.sendText A text) := by
  unfold Control.sendText
  split
  · exact h.refl c
  · exact h.trans h.toLiveEdge (h.sendText _ _)

theorem forwardKey (vk : UInt16) (mods : UInt32) : rel c (c.forwardKey A vk mods) :=
  h.trans h.toLiveEdge (h.sendKey _ _ _)

theorem method {op : Op} (hop : c.searches A (.method op) = none)
    (hstep : c.method A op = some c') : rel c c' := by
  cases op with
  | resize cols rows => cases hstep
  | scroll lines | scrollToTop | scrollToBottom | clearHistory =>
      cases hstep
      exact h.trans (h.call _ _ rfl) (h.updateScrollInfo _)
  | searchNext pattern forward => cases hop
  | resetState | selectionStart col row kind | selectionExtend col row | selectionClear
  | toggleViMode | viMotion kind =>
      cases hstep
      exact h.call _ _ rfl

/-! ## The keyboard -/

theorem perform {k : KeyAction} {last : String} (hk : k.search last = none) :
    rel c (c.perform A k) := by
  cases k with
  | ignore | copySelection => exact h.refl c
  | showSearchDialog => exact h.searching true c.lastSearchPattern c
  | searchAgain forward => cases hk
  | toggleViMode | viMotion kind | viScroll lines => exact h.call _ _ rfl
  | sendText text => exact h.sendText' text
  | forward vk mods => exact h.forwardKey vk mods

/-! ## The mouse -/

theorem sendMouseSequence (r : Report) (press : Bool) :
    rel c (c.sendMouseSequence A r press) := by
  unfold Control.sendMouseSequence
  split
  · exact h.refl c
  · exact h.sendText _ _

theorem dragSelection (ax ay : Int) : rel c (c.dragSelection A ax ay) := by
  have hdir : rel c (if ay < 0 then
        { c with autoScrollDir := -1, autoScrollLastX := ax, autoScrollTimer := true }
      else if c.clientHeight < ay then
        { c with autoScrollDir := 1, autoScrollLastX := ax, autoScrollTimer := true }
      else { c with autoScrollTimer := false, autoScrollDir := 0 }) := by
    split_ifs
    · exact h.dragging c.scrollDraggingThumb c.scrollThumbDragOffset c.selectingDrag true (-1) ax c
    · exact h.dragging c.scrollDraggingThumb c.scrollThumbDragOffset c.selectingDrag true 1 ax c
    · exact h.dragging c.scrollDraggingThumb c.scrollThumbDragOffset c.selectingDrag false 0
        c.autoScrollLastX c
  unfold Control.dragSelection
  extract_lets c'
  split
  · exact h.trans hdir (h.call _ _ rfl)
  · exact hdir

theorem dragThumb (ay : Int) : rel c (c.dragThumb A ay) := by
  unfold Control.dragThumb
  extract_lets max' height range
  split
  · exact h.refl c
  · exact h.scrollByLines _

theorem mouseMove (shift : ShiftState) (ax ay : Int) :
    rel c (c.mouseMove A shift ax ay) := by
  unfold Control.mouseMove
  split
  · exact h.sendMouseSequence _ _
  · split_ifs
    · exact h.dragSelection ax ay
    · exact h.dragThumb ay
    · exact h.refl c

theorem mouseUp (button : MouseButton) (shift : ShiftState) (ax ay : Int) :
    rel c (c.mouseUp A button shift ax ay) := by
  unfold Control.mouseUp
  split
  · exact h.sendMouseSequence _ _
  · split
    · exact h.dragging c.scrollDraggingThumb c.scrollThumbDragOffset false false 0
        c.autoScrollLastX c
    · exact h.dragging false c.scrollThumbDragOffset c.selectingDrag c.autoScrollTimer
        c.autoScrollDir c.autoScrollLastX c

theorem doMouseWheel (shift : ShiftState) (delta ax ay : Int) :
    rel c (c.doMouseWheel A shift delta ax ay) := by
  unfold Control.doMouseWheel
  split
  · split
    · exact h.sendMouseSequence _ _
    · exact h.refl c
  · exact h.scrollByLines _

theorem doAutoScrollTick : rel c (c.doAutoScrollTick A) := by
  unfold Control.doAutoScrollTick
  split
  · exact h.dragging c.scrollDraggingThumb c.scrollThumbDragOffset c.selectingDrag false
      c.autoScrollDir c.autoScrollLastX c
  · extract_lets c'
    split
    · exact h.trans (h.scrollByLines _) (h.call _ _ rfl)
    · exact h.scrollByLines _

theorem clickScrollBar (ay : Int) : rel c (c.clickScrollBar A ay) := by
  unfold Control.clickScrollBar
  split
  · exact h.refl c
  · extract_lets thumb
    split
    · exact h.dragging true (ay - thumb.1) c.selectingDrag c.autoScrollTimer c.autoScrollDir
        c.autoScrollLastX c
    · exact h.scrollByLines _

/-- A press that does not start a selection. -/
theorem mouseDown {button : MouseButton} {shift : ShiftState} {ax ay : Int}
    (hcell : c.selectionCell A button shift ax ay = none) (now : UInt32) (doubleClick : Int) :
    rel c (c.mouseDown A button shift ax ay now doubleClick) := by
  unfold Control.mouseDown
  split
  · exact h.refl c
  · next hlink =>
      split
      · exact h.sendMouseSequence _ _
      · next hreport =>
          split
          · next hleft =>
              split
              · next hbar =>
                  split
                  · exact h.refl c
                  · next htracking =>
                      have hsome : c.mouseToCell ax ay = none := by
                        rw [← hcell, Control.selectionCell, if_neg]
                        simp only [hreport, Option.isSome_none]
                        tauto
                      rw [hsome]
                      exact h.refl c
              · split
                · exact h.clickScrollBar ay
                · exact h.refl c
          · exact h.refl c

/-! ## Messages -/

theorem handle {a : Label} (ha : a.outward = false) (hsearch : c.searches A a = none)
    (hstep : c.handle A a = some c') : rel c c' := by
  cases a with
  | output chunks =>
      simp only [Control.handle, Option.ite_none_right_eq_some, Option.some.injEq] at hstep
      rcases hstep with ⟨-, rfl⟩
      exact h.output chunks c
  | keyDown vk mods clipboard | sysKeyDown vk mods clipboard | char unit | imeComposition result =>
      cases hstep
      exact h.perform hsearch
  | imeChar =>
      cases hstep
      exact h.refl c
  | imeStartComposition =>
      cases hstep
      exact h.flags c.active c.readOnly true c
  | imeEndComposition =>
      cases hstep
      exact h.flags c.active c.readOnly false c
  | mouseMove shift ax ay =>
      cases hstep
      exact h.mouseMove shift ax ay
  | mouseUp button shift ax ay =>
      cases hstep
      exact h.mouseUp button shift ax ay
  | mouseWheel shift delta ax ay =>
      cases hstep
      exact h.doMouseWheel shift delta ax ay
  | wmRataExit =>
      cases hstep
      exact h.flags false c.readOnly c.composing c
  | autoScrollTick =>
      simp only [Control.handle, Option.ite_none_right_eq_some, Option.some.injEq] at hstep
      rcases hstep with ⟨-, rfl⟩
      exact h.doAutoScrollTick
  | hideSearchBar =>
      cases hstep
      exact h.searching false c.lastSearchPattern c
  | setReadOnly value =>
      cases hstep
      exact h.flags c.active value c.composing c
  | sendText text =>
      cases hstep
      exact h.sendText' text
  | sendKey vk mods =>
      cases hstep
      unfold Control.sendKey
      split
      · exact h.refl c
      · exact h.sendKey _ _ _
  | method op => exact h.method hsearch hstep
  | searchEditChange pattern | searchBarAgain forward => cases hsearch
  | mouseDown button shift ax ay now doubleClick | wmRataRender | wmSize width height
  | fontChanged cellW cellH | start scrollback | stop => cases ha

end Rule

/-! ## Parts -/

/-- A part of the control, whatever its session, its flags and the fields for scrolling,
searching and dragging are. -/
structure Part (A : Alacritty T R) {β : Type} (part : Control T → β) : Prop where
  call : ∀ (op : Op) (c : Control T), (∀ cols rows, op ≠ .resize cols rows) →
    part (c.call A op) = part c
  output : ∀ (chunks : List (List UInt8)) (c : Control T), part (c.output A chunks) = part c
  sendText : ∀ (bytes : List UInt8) (c : Control T), part (c.rataSendText bytes) = part c
  sendKey : ∀ (vk : UInt16) (mods : UInt32) (c : Control T),
    part (c.rataSendKey A vk mods) = part c
  scrolled : ∀ (offset max' : UInt32) (c : Control T),
    part { c with scrollOffset := offset, scrollMax := max' } = part c
  searching : ∀ (bar : Bool) (pattern : String) (c : Control T),
    part { c with searchBar := bar, lastSearchPattern := pattern } = part c
  dragging : ∀ (thumb : Bool) (offset : Int) (selecting timer : Bool) (dir lastX : Int)
    (c : Control T), part { c with
      scrollDraggingThumb := thumb, scrollThumbDragOffset := offset, selectingDrag := selecting,
      autoScrollTimer := timer, autoScrollDir := dir, autoScrollLastX := lastX } = part c
  flags : ∀ (active readOnly composing : Bool) (c : Control T),
    part { c with active := active, readOnly := readOnly, composing := composing } = part c

namespace Part

variable {A : Alacritty T R} {β : Type} {part : Control T → β} (h : Part A part)
variable {c c' : Control T}

include h

theorem updateScrollInfo : part (c.updateScrollInfo A) = part c := by
  unfold Control.updateScrollInfo
  split
  · rfl
  · exact h.scrolled _ _ c

theorem rule : Rule A fun c c' => part c' = part c where
  refl _ := rfl
  trans hfirst hsecond := hsecond.trans hfirst
  call op c hop := h.call op c (by rintro cols rows rfl; cases hop)
  updateScrollInfo _ := h.updateScrollInfo
  output := h.output
  sendText := h.sendText
  sendKey := h.sendKey
  searching := h.searching
  dragging := h.dragging
  flags := h.flags

theorem handle {a : Label} (ha : a.outward = false) (hstep : c.handle A a = some c') :
    part c' = part c := by
  cases hsearch : c.searches A a with
  | none => exact h.rule.handle ha hsearch hstep
  | some search =>
      rcases Control.handle_searches hsearch hstep with ⟨last, rfl⟩
      refine Eq.trans ?_ (h.searching c.searchBar last c)
      unfold Control.searchNext
      split
      · rfl
      · exact h.call _ _ (by simp)

end Part

end RataShell.Input
