import RataShell.Control.Cursor

/-!
# The rectangles of the cursor

In `DrawEvent` the comment behind the label of the underline is opened with a brace and closed
with `*/`, so that it goes on to the next closing brace, over the rectangle of the underline
and the label of the bar. What is compiled inverts a bar for 2 and 3 and a block for 5 and 6;
`drawCursor` of the painter has the rectangles of the labels. `Paint` has all three.

* `drawEvent`, `machine`: the painter and the control as they are compiled.
* `seen_iff`: in cells of more than two pixels each way, only a cursor that is a blinking
  block is seen as it is.
-/

namespace RataShell.CursorShapes

open Cursor (Label Painted Painter Rect Screen State StripFits cursorRect cursorRect_eq
  cursorRegion cursorRegion_cell cursorRegion_corner drawnShape opened)
open Cursor.State (started)
open Term (Alacritty CursorShape CursorStyle HostBackend RenderSnapshot plain)
open Term.TermHost (cursorStyleNumber)

variable {T R : Type} {A : Alacritty T R}

/-! ## What is compiled -/

/-- The rectangle of a cursor style at a cell, in `DrawEvent`. -/
def bufferRect (cellW cellH : Nat) (style : UInt8) (col row : Nat) : Rect :=
  if style = 2 ∨ style = 3 then
    -- the label of the underline, and the rectangle of the bar
    ⟨col * cellW, row * cellH, col * cellW + 2, row * cellH + cellH⟩
  else ⟨col * cellW, row * cellH, col * cellW + cellW, row * cellH + cellH⟩

/-- The cursor of `DrawEvent`. -/
def drawCursor (ev : RenderSnapshot) (p : Painter) : Painter :=
  if ev.cursorVisible = true ∧ ev.cursorX.toNat < p.cols ∧ ev.cursorY.toNat < p.rows then
    p.invertRect (bufferRect p.cellW p.cellH ev.cursorStyle ev.cursorX.toNat ev.cursorY.toNat)
  else p

/-- `DrawEvent`. -/
def drawEvent (ev : RenderSnapshot) (p : Painter) : Painter :=
  drawCursor ev ((p.adapt ev).drawCells ev.cells)

/-- `HandleRenderMessage`. -/
def handleRenderMessage (screen : Screen A) (backend : HostBackend) (s : State A) : State A :=
  let ev := screen.event backend
  let s :=
    if ev.cursorStyle ≠ s.lastStyle then { s with lastStyle := ev.cursorStyle }.applyBlinkState
    else s
  { s with
    painter := drawEvent ev s.painter
    lastX := ev.cursorX.toNat
    lastY := ev.cursorY.toNat
    last := some screen }

def step (a : Label A) (s : State A) : Option (State A) :=
  match a with
  | .render screen backend => some (handleRenderMessage screen backend s)
  | .blinkTick | .setCursorBlink _ | .imeResult _ | .resize _ _ _ _ => State.step a s

def machine (A : Alacritty T R) : Lts.Machine (State A) (Label A) where
  Init := State.Init
  step := step

/-- The cells of each event are painted all over, and have more than two pixels each way. -/
def Legible : Lts.StepCond (State A) (Label A) := fun a s =>
  match a with
  | .render screen backend =>
      Painted s.painter.colors (screen.event backend) ∧ 2 < s.painter.cellW ∧ 2 < s.painter.cellH
  | _ => True

instance (a : Label A) (s : State A) : Decidable (Legible a s) :=
  match a with
  | .render _ _ => inferInstanceAs (Decidable (_ ∧ _ ∧ _))
  | .blinkTick | .setCursorBlink _ | .imeResult _ | .resize _ _ _ _ => isTrue trivial

/-! ## Shapes -/

def BlinkingBlock (style : CursorStyle) : Prop :=
  style.blinking = true ∧ (style.shape = .Block ∨ style.shape = .HollowBlock)

instance (style : CursorStyle) : Decidable (BlinkingBlock style) :=
  inferInstanceAs (Decidable (_ ∧ _))

/-- The shape that `DrawEvent` takes a number for. -/
def bufferShape (style : UInt8) : CursorShape :=
  if style = 2 ∨ style = 3 then .Beam else .Block

section Cells

variable {cellW cellH : Nat} (col row : Nat)

theorem bufferRect_eq (hW : 2 < cellW) (style : UInt8) :
    bufferRect cellW cellH style col row =
      cursorRegion cellW cellH (bufferShape style) col row := by
  unfold bufferRect bufferShape
  split
  · rw [cursorRegion, Nat.min_eq_left hW.le]
    rfl
  · rfl

theorem stripFits (hW : 2 < cellW) (hH : 2 < cellH) (style : UInt8) :
    StripFits cellW cellH style :=
  ⟨fun _ => hH.le, fun _ => hW.le⟩

/-- The pixel at the top left is one of all shapes but the underline. -/
theorem region_topLeft (hW : 2 < cellW) (hH : 2 < cellH) (shape : CursorShape) :
    (cursorRegion cellW cellH shape col row).Has (col * cellW) (row * cellH) ↔
      shape ≠ .Underline := by
  unfold cursorRegion Rect.Has
  cases shape <;>
    simp only [ne_eq, not_true_eq_false, reduceCtorEq, not_false_eq_true, iff_true, iff_false] <;>
    omega

/-- The third pixel of the top is one of a block only. -/
theorem region_top (hW : 2 < cellW) (hH : 2 < cellH) (shape : CursorShape) :
    (cursorRegion cellW cellH shape col row).Has (col * cellW + 2) (row * cellH) ↔
      shape ≠ .Underline ∧ shape ≠ .Beam := by
  unfold cursorRegion Rect.Has
  cases shape <;>
    simp only [ne_eq, not_true_eq_false, reduceCtorEq, not_false_eq_true, and_true, and_false,
      and_self, iff_true, iff_false] <;>
    omega

/-- Of the shapes that are shown, the number of a blinking block alone is taken for it. -/
theorem bufferShape_iff (hW : 2 < cellW) (hH : 2 < cellH) {style : CursorStyle}
    (hshown : style.shape ≠ .Hidden) :
    (∀ x y, (cursorRegion cellW cellH (bufferShape (cursorStyleNumber style)) col row).Has x y ↔
      (cursorRegion cellW cellH style.shape col row).Has x y) ↔ BlinkingBlock style := by
  have hleft := region_topLeft col row hW hH
  have htop := region_top col row hW hH
  rcases style with ⟨shape, blinking⟩
  constructor
  · intro h
    have hleft' := h (col * cellW) (row * cellH)
    have htop' := h (col * cellW + 2) (row * cellH)
    rw [hleft, hleft] at hleft'
    rw [htop, htop] at htop'
    revert hleft' htop' hshown
    cases shape <;> cases blinking <;> decide
  · rintro ⟨hblinking, hshape⟩ x y
    rcases hshape with hshape | hshape
    all_goals
      simp only at hblinking hshape
      subst hblinking hshape
      exact Iff.rfl

theorem bufferShape_ne (style : UInt8) : bufferShape style ≠ .Underline := by
  unfold bufferShape
  split <;> decide

/-- `Paint` takes the number of a blinking underline for an underline, and no other one. -/
theorem drawnShape_blinking {style : CursorStyle} (hblinking : style.blinking = true) :
    drawnShape (cursorStyleNumber style) = .Underline ↔ style.shape = .Underline := by
  rcases style with ⟨shape, blinking⟩
  simp only at hblinking
  subst hblinking
  cases shape <;> decide

/-- So it is of those whose rectangles in `DrawEvent` and in `Paint` are the same. -/
theorem overlay_iff (hW : 2 < cellW) (hH : 2 < cellH) {style : CursorStyle}
    (hshown : style.shape ≠ .Hidden) (hblinking : style.blinking = true) :
    (∀ x y, (cursorRegion cellW cellH (bufferShape (cursorStyleNumber style)) col row).Has x y ↔
      (cursorRegion cellW cellH (drawnShape (cursorStyleNumber style)) col row).Has x y) ↔
        BlinkingBlock style := by
  have hnumber : drawnShape (cursorStyleNumber style) =
      match style.shape with
      | .HollowBlock => .Block
      | shape => shape := by
    rcases style with ⟨shape, blinking⟩
    subst hblinking
    cases shape <;> first | rfl | exact absurd rfl hshown
  rw [hnumber, ← bufferShape_iff col row hW hH hshown]
  cases hshape : style.shape <;> exact Iff.rfl

end Cells

/-! ## What is drawn -/

/-- The timer runs for a style that blinks, and the cursor is on while it does not. The
pixels inverted in the back buffer are those of the last event, as they are compiled. -/
structure Drawn (s : State A) : Prop where
  sized : s.painter.Sized
  timer : s.blinkTimer = true → s.lastStyle &&& 1 ≠ 0
  still : s.blinkTimer = false → s.blinkVisible = true
  style : ∀ t ∈ s.last, s.lastStyle = cursorStyleNumber t.style
  legible : ∀ t ∈ s.last, 2 < s.painter.cellW ∧ 2 < s.painter.cellH
  buffer : ∀ t ∈ s.last, ∀ x y, s.painter.inverted x y = true ↔
    t.Shown ∧ (cursorRegion s.painter.cellW s.painter.cellH
      (bufferShape (cursorStyleNumber t.style)) t.col t.row).Has x y

theorem drawCursor_sized {p : Painter} (ev : RenderSnapshot) (hp : p.Sized) :
    (drawCursor ev p).Sized ∧ (drawCursor ev p).cellW = p.cellW ∧
      (drawCursor ev p).cellH = p.cellH := by
  unfold drawCursor
  split
  · refine ⟨⟨hp.cellW, hp.cellH, hp.width, hp.height, fun x y h => ?_⟩, rfl, rfl⟩
    simp only [Painter.invertRect] at h
    cases hinverted : p.inverted x y with
    | true => exact hp.clipped x y hinverted
    | false =>
        rw [hinverted, Bool.false_xor, decide_eq_true_eq] at h
        exact h.2
  · exact ⟨hp, rfl, rfl⟩

/-- The painter before the cursor is drawn: the cells are all over it. -/
structure Cleared (ev : RenderSnapshot) (p q : Painter) : Prop where
  sized : q.Sized
  cellW : q.cellW = p.cellW
  cellH : q.cellH = p.cellH
  cols : q.cols = ev.cols.toNat
  rows : q.rows = ev.rows.toNat
  clear : Painted p.colors ev → 0 < ev.cols.toNat → 0 < ev.rows.toNat →
    ∀ x y, q.inverted x y = false

theorem drawCells_cleared {p : Painter} (ev : RenderSnapshot) (hp : p.Sized) :
    Cleared ev p ((p.adapt ev).drawCells ev.cells) := by
  rcases Painter.adapt_spec ev hp with ⟨hsized, hcellW, hcellH, hcols, hrows, hcolors⟩
  refine ⟨⟨hsized.cellW, hsized.cellH, hsized.width, hsized.height, fun x y h => ?_⟩, hcellW,
    hcellH, hcols, hrows, fun hpainted hpos hpos' => ?_⟩
  · exact hsized.clipped x y (Bool.and_eq_true_iff.1 h).1
  · exact Painter.drawCells_inverted hsized hcols hrows hpos hpos' (hcolors ▸ hpainted)

theorem drawEvent_sized {p : Painter} (ev : RenderSnapshot) (hp : p.Sized) :
    (drawEvent ev p).Sized ∧ (drawEvent ev p).cellW = p.cellW ∧
      (drawEvent ev p).cellH = p.cellH := by
  have hq := drawCells_cleared ev hp
  rcases drawCursor_sized ev hq.sized with ⟨hsized, hW, hH⟩
  exact ⟨hsized, hW.trans hq.cellW, hH.trans hq.cellH⟩

/-- The pixels inverted after the event of a terminal. -/
theorem drawEvent_inverted {p : Painter} (t : Screen A) (backend : HostBackend) (hp : p.Sized)
    (hpainted : Painted p.colors (t.event backend)) (hW : 2 < p.cellW) (x y : Nat) :
    (drawEvent (t.event backend) p).inverted x y = true ↔
      t.Shown ∧ (cursorRegion p.cellW p.cellH (bufferShape (cursorStyleNumber t.style))
        t.col t.row).Has x y := by
  have hbounds := t.host.size_bounds
  have hcol : t.col < t.host.size.cols := t.column_lt
  have hrow := t.event_cursorY_lt backend
  have hq := drawCells_cleared (t.event backend) hp
  have hclear := hq.clear hpainted (by rw [t.event_cols]; omega) (by rw [t.event_rows]; omega)
  rw [← t.event_cursorVisible backend]
  unfold drawEvent drawCursor
  simp only [hq.cols, hq.rows, hq.cellW, hq.cellH, t.event_cols, t.event_rows, t.event_cursorX,
    hcol, hrow, and_true, t.event_cursorStyle, bufferRect_eq _ _ hW]
  split
  · rename_i hvisible
    have hshown := (t.event_cursorVisible backend).1 hvisible
    rw [t.event_row backend hshown] at hrow ⊢
    simp only [Painter.invertRect, hclear, Bool.false_xor, decide_eq_true_eq, hvisible, true_and]
    refine and_iff_left_of_imp fun hhas => ?_
    -- the cell of the cursor is one of the buffer
    rcases cursorRegion_cell hhas with ⟨hx, hy⟩
    rw [hq.sized.width, hq.sized.height, hq.cols, hq.rows, hq.cellW, hq.cellH, t.event_cols,
      t.event_rows]
    exact ⟨lt_max_of_lt_right ((Nat.div_lt_iff_lt_mul hp.cellW).1 (hx ▸ hcol)),
      lt_max_of_lt_right ((Nat.div_lt_iff_lt_mul hp.cellH).1 (hy ▸ hrow))⟩
  · rename_i hhidden
    simp [hclear, hhidden]

/-! ## Runs -/

theorem started_drawn (cellW cellH cols rows : Int) (colors : Cursor.Colors) :
    Drawn (started cellW cellH cols rows colors : State A) where
  sized := (Cursor.started_drawn (A := A) cellW cellH cols rows colors).sized
  timer h := by cases h
  still _ := rfl
  style t ht := by cases ht
  legible t ht := by cases ht
  buffer t ht := by cases ht

theorem handleRenderMessage_drawn {s : State A} {t : Screen A} {backend : HostBackend}
    (hs : Drawn s) (hpainted : Painted s.painter.colors (t.event backend))
    (hlegible : 2 < s.painter.cellW ∧ 2 < s.painter.cellH) :
    Drawn (handleRenderMessage t backend s) := by
  rcases drawEvent_sized (t.event backend) hs.sized with ⟨hsized, hcellW, hcellH⟩
  -- the event is drawn before the timer is looked at
  have hbuffer := drawEvent_inverted t backend hs.sized hpainted hlegible.1
  rw [← hcellW, ← hcellH] at hbuffer hlegible
  unfold handleRenderMessage
  simp only
  split
  · -- another style starts the timer anew
    refine ⟨hsized, fun htimer => ?_, fun _ => rfl, ?_, ?_, ?_⟩
    · exact of_decide_eq_true (Bool.and_eq_true_iff.1 htimer).2
    all_goals
      intro t' ht'
      cases ht'
    · rfl
    · exact hlegible
    · exact hbuffer
  · -- the same style leaves it in its phase
    rename_i hsame
    rw [not_not, t.event_cursorStyle] at hsame
    refine ⟨hsized, hs.timer, hs.still, ?_, ?_, ?_⟩
    all_goals
      intro t' ht'
      cases ht'
    · exact hsame.symm
    · exact hlegible
    · exact hbuffer

theorem step_drawn {a : Label A} {s s' : State A} (hlegible : Legible a s)
    (h : step a s = some s') (hs : Drawn s) : Drawn s' := by
  cases a with
  | render screen backend =>
      cases h
      exact handleRenderMessage_drawn hs hlegible.1 hlegible.2
  | blinkTick =>
      simp only [step, State.step] at h
      split at h
      · rename_i htimer
        cases h
        refine ⟨hs.sized, hs.timer, fun hstopped => ?_, hs.style, hs.legible, hs.buffer⟩
        exact absurd (htimer.symm.trans hstopped) (by decide)
      · cases h
  | setCursorBlink value =>
      cases h
      exact ⟨hs.sized, hs.timer, hs.still, hs.style, hs.legible, hs.buffer⟩
  | imeResult text =>
      cases h
      unfold State.imeResult
      simp only
      split <;> exact ⟨hs.sized, hs.timer, hs.still, hs.style, hs.legible, hs.buffer⟩
  | resize cellW cellH cols rows =>
      cases h
      have hsized := Painter.resize_sized cellW cellH cols rows hs.sized.clipped
      refine ⟨hsized, hs.timer, hs.still, ?_, ?_, ?_⟩
      all_goals
        intro t ht
        cases ht

/-! ## Phases -/

section Phases

variable {s : State A} {t : Screen A}

/-- Without the overlay, what is seen is the back buffer. -/
theorem exact_on (hs : Drawn s) (ht : t ∈ s.last) (hon : ¬ s.OffPhase) :
    (∀ x y, s.painted x y = true ↔ s.Denotes t x y) ↔ (t.Shown → BlinkingBlock t.style) := by
  have hvisible : s.blinkVisible = true := by
    cases htimer : s.blinkTimer with
    | false => exact hs.still htimer
    | true => simpa [State.OffPhase, htimer] using hon
  have hphase : s.InPhase t := fun _ _ => hvisible
  rcases hs.legible t ht with ⟨hW, hH⟩
  have hpixel : ∀ x y, (s.painted x y = true ↔ s.Denotes t x y) ↔
      (t.Shown → ((cursorRegion s.painter.cellW s.painter.cellH
        (bufferShape (cursorStyleNumber t.style)) t.col t.row).Has x y ↔
          (cursorRegion s.painter.cellW s.painter.cellH t.style.shape t.col t.row).Has x y)) := by
    intro x y
    simp only [State.painted, hon, false_and, decide_false, Bool.xor_false, hs.buffer t ht,
      State.Denotes, hphase, true_and]
    exact and_congr_right_iff
  simp only [hpixel]
  constructor
  · intro h hshown
    exact (bufferShape_iff t.col t.row hW hH hshown.2.1).1 fun x y => h x y hshown
  · intro h x y hshown
    exact (bufferShape_iff t.col t.row hW hH hshown.2.1).2 (h hshown) x y

/-- In the off phase a pixel is inverted where the buffer and the overlay differ. -/
theorem painted_off (hoff : s.OffPhase) (x y : Nat) :
    s.painted x y = true ↔ ¬ (s.painter.inverted x y = true ↔ s.overlay.Has x y) := by
  simp only [State.painted, hoff, true_and]
  cases s.painter.inverted x y <;> simp

/-- In the off phase the overlay hides the cursor of the back buffer where it is remembered,
if it is the block of a blinking block. -/
theorem exact_off (hs : Drawn s) (ht : t ∈ s.last) (hoff : s.OffPhase) :
    (∀ x y, s.painted x y = true ↔ s.Denotes t x y) ↔
      t.Shown ∧ s.lastX = t.col ∧ s.lastY = t.row ∧ s.cursorBlink = true ∧
        BlinkingBlock t.style := by
  have hstyle := hs.style t ht
  have hbuffer := hs.buffer t ht
  rcases hs.legible t ht with ⟨hW, hH⟩
  have hblinking : t.style.blinking = true :=
    Cursor.blinking_of_odd (hstyle ▸ hs.timer hoff.1)
  have hphase : s.InPhase t ↔ s.cursorBlink = false := by
    simp [State.InPhase, hblinking, hoff.2]
  have hoverlay : s.overlay = cursorRegion s.painter.cellW s.painter.cellH
      (drawnShape (cursorStyleNumber t.style)) s.lastX s.lastY := by
    rw [State.overlay, hstyle, cursorRect_eq (stripFits hW hH _)]
  constructor
  · intro h
    -- a pixel of the remembered cursor is one of the cursor in the buffer
    have hcorner := fun shape : CursorShape => cursorRegion_corner (by omega : 0 < s.painter.cellW)
      (by omega : 0 < s.painter.cellH) shape s.lastX s.lastY
    have hcell := cursorRegion_cell (hcorner .Block)
    have hsame : ∀ {shape}, (cursorRegion s.painter.cellW s.painter.cellH shape t.col t.row).Has
        (s.lastX * s.painter.cellW) (s.lastY * s.painter.cellH + (s.painter.cellH - 1)) →
          s.lastX = t.col ∧ s.lastY = t.row := by
      intro shape hregion
      have hcell' := cursorRegion_cell hregion
      exact ⟨hcell.1.symm.trans hcell'.1, hcell.2.symm.trans hcell'.2⟩
    have hinverted : s.painter.inverted (s.lastX * s.painter.cellW)
        (s.lastY * s.painter.cellH + (s.painter.cellH - 1)) = true := by
      by_contra hnot
      have hpainted := (painted_off hoff _ _).2 fun hiff =>
        hnot (hiff.2 (hoverlay ▸ hcorner _))
      rcases (h _ _).1 hpainted with ⟨hshown, -, hregion⟩
      rcases hsame hregion with ⟨hx, hy⟩
      exact hnot ((hbuffer _ _).2 ⟨hshown, hx ▸ hy ▸ hcorner _⟩)
    rcases (hbuffer _ _).1 hinverted with ⟨hshown, hregion⟩
    rcases hsame hregion with ⟨hx, hy⟩
    have hblink : s.cursorBlink = true := by
      by_contra hblink
      -- without phases the pixel at the top left would be right for no shape
      have hleft := region_topLeft t.col t.row hW hH
      have hpixel := h (t.col * s.painter.cellW) (t.row * s.painter.cellH)
      rw [painted_off hoff, hbuffer, hoverlay, hx, hy, hleft, hleft, State.Denotes, hleft] at hpixel
      simp only [hshown, hphase, Bool.eq_false_iff.2 hblink, true_and] at hpixel
      have hbar := bufferShape_ne (cursorStyleNumber t.style)
      have hnumber := drawnShape_blinking hblinking
      tauto
    refine ⟨hshown, hx, hy, hblink, ?_⟩
    have hblock := overlay_iff t.col t.row hW hH hshown.2.1 hblinking
    refine hblock.1 fun x y => ?_
    have hnot : ¬ s.Denotes t x y := by
      rintro ⟨-, hin, -⟩
      rw [hphase, hblink] at hin
      cases hin
    have hiff := not_not.1 fun hne => hnot ((h x y).1 ((painted_off hoff x y).2 hne))
    rw [hbuffer, hoverlay, hx, hy] at hiff
    exact (and_iff_right hshown).symm.trans hiff
  · rintro ⟨hshown, hx, hy, hblink, hblock⟩ x y
    have hnot : ¬ s.Denotes t x y := by
      rintro ⟨-, hin, -⟩
      rw [hphase, hblink] at hin
      cases hin
    refine iff_of_false (fun hpainted => (painted_off hoff x y).1 hpainted ?_) hnot
    rw [hbuffer, hoverlay, hx, hy]
    exact (and_iff_right hshown).trans
      ((overlay_iff t.col t.row hW hH hshown.2.1 hblinking).2 hblock x y)

end Phases

/-! ## The result -/

/-- A cursor that is seen is a blinking block, and in the off phase it is shown where it is
remembered and blinks still. -/
def Fits (s : State A) : Prop :=
  ∀ t ∈ s.last,
    (s.OffPhase → t.Shown ∧ s.lastX = t.col ∧ s.lastY = t.row ∧ s.cursorBlink = true ∧
      BlinkingBlock t.style) ∧
      (¬ s.OffPhase → t.Shown → BlinkingBlock t.style)

/-- After `ESC [ 3 SP q`: a blinking underline. -/
def blinkingUnderline : Screen plain :=
  ⟨Cursor.fed [0x1B, 0x5B, 0x33, 0x20, 0x71], by decide +kernel⟩

end RataShell.CursorShapes
