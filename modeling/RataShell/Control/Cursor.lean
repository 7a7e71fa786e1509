import RataShell.Lib.Machine
import RataShell.Control.Painter
import RataShell.Control.Text

/-!
# The cursor on the screen

The snapshot gives the cursor a position and a VT number, the painter inverts its
rectangle, and `Paint` inverts that of the remembered cursor once more while the
blink timer is in its off phase.

* `Exact`: the inverted pixels are those that the cursor of the terminal denotes.
* `exact_iff`: when they are.
* `cursor_misdrawn`: a steady block, and a cursor hidden in the off phase.
-/

namespace RataShell.Cursor

open Input (Text)
open Sizes (Size)
open Term (Alacritty CursorShape CursorStyle HostBackend Plain RenderSnapshot TermHost plain)
open Term.TermHost (cursorStyleNumber)
open Term.Mirror (meta_cols meta_rows)

variable {T R : Type} {A : Alacritty T R}

/-! ## The cursor of the terminal -/

/-- A terminal whose cursor stands in a column of the screen. -/
structure Screen (A : Alacritty T R) where
  host : TermHost T
  column_lt : (A.grid host.term).cursor.column < host.size.cols

namespace Screen

def style (t : Screen A) : CursorStyle := A.cursorStyle t.host.term

def col (t : Screen A) : Nat := (A.grid t.host.term).cursor.column

def row (t : Screen A) : Nat := (t.host.cursorLine A).toNat

/-- The cursor is shown and in view. -/
def Shown (t : Screen A) : Prop :=
  (A.mode t.host.term).showCursor = true ∧ t.style.shape ≠ .Hidden ∧ t.host.CursorInView A

instance (t : Screen A) : Decidable t.Shown := inferInstanceAs (Decidable (_ ∧ _ ∧ _))

/-- The event that a backend makes of it. -/
def event (backend : HostBackend) (t : Screen A) : RenderSnapshot := backend.render A t.host

end Screen

/-- The region of a cell that a shape denotes. -/
def cursorRegion (cellW cellH : Nat) (shape : CursorShape) (col row : Nat) : Rect :=
  match shape with
  | .Underline =>
      ⟨col * cellW, row * cellH + cellH - min 2 cellH, col * cellW + cellW, row * cellH + cellH⟩
  | .Beam => ⟨col * cellW, row * cellH, col * cellW + min 2 cellW, row * cellH + cellH⟩
  | .Block | .HollowBlock | .Hidden =>
      ⟨col * cellW, row * cellH, col * cellW + cellW, row * cellH + cellH⟩

/-! ## The control -/

/-- The painter, `FCursorBlink`, the blink timer, `FBlinkVisible`, the remembered
cursor, and the terminal of the last event that is drawn. -/
structure State (A : Alacritty T R) where
  painter : Painter
  cursorBlink : Bool
  blinkTimer : Bool
  blinkVisible : Bool
  lastStyle : UInt8
  lastX : Nat
  lastY : Nat
  last : Option (Screen A)

/-- An event, a tick of the blink timer, a change of `CursorBlink`, a committed
composition that is sent, and a new font or size. -/
inductive Label (A : Alacritty T R) where
  | render (screen : Screen A) (backend : HostBackend)
  | blinkTick
  | setCursorBlink (value : Bool)
  | imeResult (text : Text)
  | resize (cellW cellH cols rows : Int)

/-- The ranges of `HangulCellWidth`. -/
def wideRanges : List (UInt16 × UInt16) :=
  [(0x1100, 0x115F), (0x2E80, 0x303E), (0x3041, 0x33FF), (0x3400, 0x4DBF), (0x4E00, 0x9FFF),
   (0xA000, 0xA4CF), (0xA960, 0xA97F), (0xAC00, 0xD7A3), (0xF900, 0xFAFF), (0xFE30, 0xFE4F),
   (0xFF00, 0xFF60), (0xFFE0, 0xFFE6)]

/-- `HangulCellWidth`. -/
def hangulCellWidth (text : Text) : Nat :=
  (text.map fun u => if wideRanges.any fun r => r.1 ≤ u && u ≤ r.2 then 2 else 1).sum

namespace State

/-- `ApplyBlinkState`. -/
def applyBlinkState (s : State A) : State A :=
  { s with blinkVisible := true, blinkTimer := s.cursorBlink && decide (s.lastStyle &&& 1 ≠ 0) }

/-- `HandleRenderMessage`. -/
def handleRenderMessage (screen : Screen A) (backend : HostBackend) (s : State A) : State A :=
  let ev := screen.event backend
  let s :=
    if ev.cursorStyle ≠ s.lastStyle then { s with lastStyle := ev.cursorStyle }.applyBlinkState
    else s
  { s with
    painter := s.painter.drawEvent ev
    lastX := ev.cursorX.toNat
    lastY := ev.cursorY.toNat
    last := some screen }

/-- `DoBlinkTick`. -/
def doBlinkTick (s : State A) : State A := { s with blinkVisible := !s.blinkVisible }

/-- The cursor that `WMImeComposition` predicts. -/
def imeResult (text : Text) (s : State A) : State A :=
  let x := s.lastX + hangulCellWidth text
  if s.painter.cols ≤ x then { s with lastX := 0, lastY := s.lastY + 1 } else { s with lastX := x }

/-- What is drawn is lost until the next event. -/
def resize (cellW cellH cols rows : Int) (s : State A) : State A :=
  { s with painter := (s.painter.measureCell cellW cellH).resize cols rows, last := none }

def step (a : Label A) (s : State A) : Option (State A) :=
  match a with
  | .render screen backend => some (s.handleRenderMessage screen backend)
  | .blinkTick => if s.blinkTimer then some s.doBlinkTick else none
  | .setCursorBlink value => some { s with cursorBlink := value }
  | .imeResult text => some (s.imeResult text)
  | .resize cellW cellH cols rows => some (s.resize cellW cellH cols rows)

/-- A control with a window and a session, before the first event. -/
def started (cellW cellH cols rows : Int) (colors : Colors) : State A where
  painter := ((Painter.create cellW cellH colors).measureCell cellW cellH).resize cols rows
  cursorBlink := true
  blinkTimer := false
  blinkVisible := true
  lastStyle := 0
  lastX := 0
  lastY := 0
  last := none

def Init (s : State A) : Prop :=
  ∃ cellW cellH cols rows colors, s = started cellW cellH cols rows colors

/-! ## What is seen -/

/-- `Paint` inverts the remembered cursor. -/
def OffPhase (s : State A) : Prop := s.blinkTimer = true ∧ s.blinkVisible = false

instance (s : State A) : Decidable s.OffPhase := inferInstanceAs (Decidable (_ ∧ _))

/-- The rectangle of the remembered cursor. -/
def overlay (s : State A) : Rect :=
  cursorRect s.painter.cellW s.painter.cellH s.lastStyle s.lastX s.lastY

/-- The pixel is inverted after `Paint`. -/
def painted (s : State A) (x y : Nat) : Bool :=
  s.painter.inverted x y ^^ decide (s.OffPhase ∧ s.overlay.Has x y)

/-- The cursor of the terminal is in its visible phase: it does not blink, or it is on. -/
def InPhase (t : Screen A) (s : State A) : Prop :=
  (t.style.blinking = true → s.cursorBlink = true → s.blinkVisible = true)

instance (t : Screen A) (s : State A) : Decidable (s.InPhase t) :=
  inferInstanceAs (Decidable (_ → _ → _))

/-- The pixel is one that the cursor of the terminal denotes. -/
def Denotes (t : Screen A) (s : State A) (x y : Nat) : Prop :=
  t.Shown ∧ s.InPhase t ∧
    (cursorRegion s.painter.cellW s.painter.cellH t.style.shape t.col t.row).Has x y

instance (t : Screen A) (s : State A) (x y : Nat) : Decidable (s.Denotes t x y) :=
  inferInstanceAs (Decidable (_ ∧ _ ∧ _))

/-- The inverted pixels are those that the cursor of the last event denotes. -/
def Exact (s : State A) : Prop := ∀ t ∈ s.last, ∀ x y, s.painted x y = true ↔ s.Denotes t x y

end State

def machine (A : Alacritty T R) : Lts.Machine (State A) (Label A) where
  Init := State.Init
  step := State.step

/-! ## Shapes in a cell -/

/-- The strip that `DrawEvent` draws of a style is not wider or higher than a cell. -/
def StripFits (cellW cellH : Nat) (style : UInt8) : Prop :=
  (style = 2 ∨ style = 3 → 2 ≤ cellH) ∧ (style = 5 ∨ style = 6 → 2 ≤ cellW)

instance (cellW cellH : Nat) (style : UInt8) : Decidable (StripFits cellW cellH style) :=
  inferInstanceAs (Decidable ((_ → _) ∧ (_ → _)))

/-- The numbers of the steady block and underline stand for the other one in
`DrawEvent`; it is the same in cells of 2 pixels. -/
def TableFits (cellH : Nat) (style : CursorStyle) : Prop :=
  style.blinking = false →
    match style.shape with
    | .Block | .HollowBlock => cellH = 2
    | .Underline => cellH ≤ 2
    | .Beam | .Hidden => True

section Cells

variable {cellW cellH col row : Nat}

/-- A pixel of a cell. -/
theorem div_eq_of_cell {n k x : Nat} (hleft : (k : Int) * n ≤ x) (hright : (x : Int) < k * n + n) :
    x / n = k := by
  have hle : k * n ≤ x := by exact_mod_cast hleft
  have hlt : x < (k + 1) * n := by
    rw [Nat.succ_mul]
    exact_mod_cast hright
  exact Nat.div_eq_of_lt_le hle hlt

theorem cursorRegion_cell {shape : CursorShape} {x y : Nat}
    (h : (cursorRegion cellW cellH shape col row).Has x y) : x / cellW = col ∧ y / cellH = row := by
  cases shape with
  | Underline =>
      rcases h with ⟨⟨hleft, hright⟩, htop, hbottom⟩
      simp only [cursorRegion] at htop
      exact ⟨div_eq_of_cell hleft hright, div_eq_of_cell (by omega) hbottom⟩
  | Beam =>
      rcases h with ⟨⟨hleft, hright⟩, htop, hbottom⟩
      simp only [cursorRegion] at hright
      exact ⟨div_eq_of_cell hleft (by omega), div_eq_of_cell htop hbottom⟩
  | Block | HollowBlock | Hidden =>
      rcases h with ⟨⟨hleft, hright⟩, htop, hbottom⟩
      exact ⟨div_eq_of_cell hleft hright, div_eq_of_cell htop hbottom⟩

/-- The pixel at the bottom left is one of every shape. -/
theorem cursorRegion_corner (hW : 0 < cellW) (hH : 0 < cellH) (shape : CursorShape)
    (col row : Nat) :
    (cursorRegion cellW cellH shape col row).Has (col * cellW) (row * cellH + (cellH - 1)) := by
  unfold cursorRegion Rect.Has
  cases shape <;> simp only <;> omega

/-- The shape that `DrawEvent` and `Paint` take a number for. -/
def drawnShape (style : UInt8) : CursorShape :=
  if style = 2 ∨ style = 3 then .Underline else if style = 5 ∨ style = 6 then .Beam else .Block

theorem cursorRect_eq {style : UInt8} (hstrip : StripFits cellW cellH style) (col row : Nat) :
    cursorRect cellW cellH style col row = cursorRegion cellW cellH (drawnShape style) col row := by
  unfold cursorRect drawnShape
  split
  · rename_i hstyle
    rw [cursorRegion, Nat.min_eq_left (hstrip.1 hstyle)]
    rfl
  · split
    · rename_i hstyle
      rw [cursorRegion, Nat.min_eq_left (hstrip.2 hstyle)]
      rfl
    · rfl

variable (cellH col row) in
/-- The strip at the bottom is the whole cell. -/
theorem underline_iff_block (hW : 0 < cellW) :
    (∀ x y, (cursorRegion cellW cellH .Underline col row).Has x y ↔
      (cursorRegion cellW cellH .Block col row).Has x y) ↔ cellH ≤ 2 := by
  unfold cursorRegion Rect.Has
  simp only
  constructor
  · intro h
    -- the pixel at the top left
    have htop := (h (col * cellW) (row * cellH)).2
    omega
  · intro hle x y
    omega

/-- The number of a cursor is taken for its shape exactly where the table fits. -/
theorem drawnShape_iff {style : CursorStyle} (hW : 0 < cellW)
    (hstrip : StripFits cellW cellH (cursorStyleNumber style)) (hshown : style.shape ≠ .Hidden) :
    (∀ x y, (cursorRegion cellW cellH (drawnShape (cursorStyleNumber style)) col row).Has x y ↔
      (cursorRegion cellW cellH style.shape col row).Has x y) ↔ TableFits cellH style := by
  have hswap := underline_iff_block cellH col row hW
  rcases style with ⟨shape, blinking⟩
  cases shape with
  | Hidden => exact absurd rfl hshown
  | Beam => cases blinking <;> exact iff_of_true (fun _ _ => Iff.rfl) (fun _ => trivial)
  | Block | HollowBlock =>
      cases blinking with
      | true => exact iff_of_true (fun _ _ => Iff.rfl) (fun h => by cases h)
      | false =>
          have hheight : 2 ≤ cellH := hstrip.1 (.inl rfl)
          refine hswap.trans ⟨fun hle _ => ?_, fun h => ?_⟩
          · exact Nat.le_antisymm hle hheight
          · exact Nat.le_of_eq (h rfl)
  | Underline =>
      cases blinking with
      | true => exact iff_of_true (fun _ _ => Iff.rfl) (fun h => by cases h)
      | false =>
          have hback : TableFits cellH ⟨.Underline, false⟩ ↔ cellH ≤ 2 :=
            ⟨fun h => h rfl, fun h _ => h⟩
          rw [hback, ← hswap]
          exact forall_congr' fun x => forall_congr' fun y => Iff.comm

end Cells

/-! ## What is drawn -/

/-- The cells of each event are painted all over, and the strip of its cursor fits
into a cell. -/
def Clear : Lts.StepCond (State A) (Label A) := fun a s =>
  match a with
  | .render screen backend =>
      Painted s.painter.colors (screen.event backend) ∧
        StripFits s.painter.cellW s.painter.cellH (cursorStyleNumber screen.style)
  | _ => True

instance (a : Label A) (s : State A) : Decidable (Clear a s) :=
  match a with
  | .render _ _ => inferInstanceAs (Decidable (_ ∧ _))
  | .blinkTick | .setCursorBlink _ | .imeResult _ | .resize _ _ _ _ => isTrue trivial

/-- In the off phase the cursor is drawn where it is remembered and blinks still; else
a cursor that is drawn is one whose number stands for its shape. -/
def Fits (s : State A) : Prop :=
  ∀ t ∈ s.last,
    (s.OffPhase → t.Shown ∧ s.lastX = t.col ∧ s.lastY = t.row ∧ s.cursorBlink = true) ∧
      (¬ s.OffPhase → t.Shown → TableFits s.painter.cellH t.style)

/-- The timer runs for a style that blinks, and the cursor is on while it does not. The
pixels inverted in the back buffer are those of the last event. -/
structure Drawn (s : State A) : Prop where
  sized : s.painter.Sized
  timer : s.blinkTimer = true → s.lastStyle &&& 1 ≠ 0
  still : s.blinkTimer = false → s.blinkVisible = true
  style : ∀ t ∈ s.last, s.lastStyle = cursorStyleNumber t.style
  strip : ∀ t ∈ s.last, StripFits s.painter.cellW s.painter.cellH (cursorStyleNumber t.style)
  buffer : ∀ t ∈ s.last, ∀ x y, s.painter.inverted x y = true ↔
    t.Shown ∧ (cursorRegion s.painter.cellW s.painter.cellH
      (drawnShape (cursorStyleNumber t.style)) t.col t.row).Has x y

namespace Screen

variable (t : Screen A) (backend : HostBackend)

theorem event_cols : (t.event backend).cols.toNat = t.host.size.cols :=
  meta_cols (A := A) t.host

theorem event_rows : (t.event backend).rows.toNat = t.host.size.lines :=
  meta_rows (A := A) t.host

theorem event_cursorStyle : (t.event backend).cursorStyle = cursorStyleNumber t.style := rfl

theorem event_cursorVisible : (t.event backend).cursorVisible = true ↔ t.Shown := by
  simp [event, HostBackend.render, TermHost.snapshotMeta, Shown, style, and_assoc]

theorem event_cursorX : (t.event backend).cursorX.toNat = t.col := by
  have hlt := t.column_lt
  have hcols := t.host.size_bounds.1.2
  show (UInt16.ofNat (min _ _)).toNat = _
  rw [Nat.min_eq_left (by omega)]
  exact UInt16.toNat_ofNat_of_lt' (hlt.trans hcols)

theorem event_cursorY : (t.event backend).cursorY.toNat =
    (min (max (t.host.cursorLine A) 0) (t.host.size.lines - 1)).toNat := by
  have hlines := t.host.size_bounds.2
  refine UInt16.toNat_ofNat_of_lt' ?_
  show _ < 65536
  omega

theorem event_cursorY_lt : (t.event backend).cursorY.toNat < t.host.size.lines := by
  have hlines := t.host.size_bounds.2
  rw [event_cursorY]
  omega

/-- A cursor in view has its own row. -/
theorem event_row (hshown : t.Shown) : (t.event backend).cursorY.toNat = t.row := by
  rcases hshown with ⟨-, -, hge, hlt⟩
  rw [event_cursorY, row]
  omega

end Screen

/-- The painter after the event of a terminal. -/
theorem drawEvent_screen {p : Painter} (t : Screen A) (backend : HostBackend) (hp : p.Sized)
    (hpainted : Painted p.colors (t.event backend))
    (hstrip : StripFits p.cellW p.cellH (cursorStyleNumber t.style)) (x y : Nat) :
    (p.drawEvent (t.event backend)).inverted x y = true ↔
      t.Shown ∧ (cursorRegion p.cellW p.cellH (drawnShape (cursorStyleNumber t.style))
        t.col t.row).Has x y := by
  have hbounds := t.host.size_bounds
  have hcol : t.col < t.host.size.cols := t.column_lt
  have hrow := t.event_cursorY_lt backend
  have hinverted := Painter.drawEvent_inverted (t.event backend) hp
    (by rw [t.event_cols]; omega) (by rw [t.event_rows]; omega) hpainted
    (by rw [t.event_cursorX, t.event_cols]; exact hcol)
    (by rw [t.event_rows]; exact hrow) x y
  rw [hinverted, t.event_cursorVisible, t.event_cursorStyle, t.event_cols, t.event_rows,
    t.event_cursorX, cursorRect_eq hstrip]
  refine and_congr_right fun hshown => ?_
  rw [t.event_row backend hshown] at hrow ⊢
  refine and_iff_left_of_imp fun hhas => ?_
  -- the cell of the cursor is one of the buffer
  rcases cursorRegion_cell hhas with ⟨hx, hy⟩
  exact ⟨(Nat.div_lt_iff_lt_mul hp.cellW).1 (hx ▸ hcol),
    (Nat.div_lt_iff_lt_mul hp.cellH).1 (hy ▸ hrow)⟩

/-! ## Runs -/

theorem started_drawn (cellW cellH cols rows : Int) (colors : Colors) :
    Drawn (State.started cellW cellH cols rows colors : State A) where
  sized := Painter.resize_sized cellW cellH cols rows
    (by simp [Painter.create, Painter.measureCell])
  timer h := by cases h
  still _ := rfl
  style t ht := by cases ht
  strip t ht := by cases ht
  buffer t ht := by cases ht

theorem handleRenderMessage_drawn {s : State A} {t : Screen A} {backend : HostBackend}
    (hs : Drawn s) (hpainted : Painted s.painter.colors (t.event backend))
    (hstrip : StripFits s.painter.cellW s.painter.cellH (cursorStyleNumber t.style)) :
    Drawn (s.handleRenderMessage t backend) := by
  rcases Painter.drawEvent_sized (t.event backend) hs.sized with ⟨hsized, hcellW, hcellH⟩
  -- the event is drawn before the timer is looked at
  have hbuffer := drawEvent_screen t backend hs.sized hpainted hstrip
  rw [← hcellW, ← hcellH] at hbuffer hstrip
  unfold State.handleRenderMessage
  simp only
  split
  · -- another style starts the timer anew
    refine ⟨hsized, fun htimer => ?_, fun _ => rfl, ?_, ?_, ?_⟩
    · exact of_decide_eq_true (Bool.and_eq_true_iff.1 htimer).2
    all_goals
      intro t' ht'
      cases ht'
    · rfl
    · exact hstrip
    · exact hbuffer
  · -- the same style leaves it in its phase
    rename_i hsame
    rw [not_not, t.event_cursorStyle] at hsame
    refine ⟨hsized, hs.timer, hs.still, ?_, ?_, ?_⟩
    all_goals
      intro t' ht'
      cases ht'
    · exact hsame.symm
    · exact hstrip
    · exact hbuffer

theorem step_drawn {a : Label A} {s s' : State A} (hclear : Clear a s) (h : s.step a = some s')
    (hs : Drawn s) : Drawn s' := by
  cases a with
  | render screen backend =>
      cases h
      exact handleRenderMessage_drawn hs hclear.1 hclear.2
  | blinkTick =>
      simp only [State.step] at h
      split at h
      · rename_i htimer
        cases h
        refine ⟨hs.sized, hs.timer, fun hstopped => ?_, hs.style, hs.strip, hs.buffer⟩
        exact absurd (htimer.symm.trans hstopped) (by decide)
      · cases h
  | setCursorBlink value =>
      -- the timer stays as it is
      cases h
      exact ⟨hs.sized, hs.timer, hs.still, hs.style, hs.strip, hs.buffer⟩
  | imeResult text =>
      cases h
      unfold State.imeResult
      simp only
      split <;> exact ⟨hs.sized, hs.timer, hs.still, hs.style, hs.strip, hs.buffer⟩
  | resize cellW cellH cols rows =>
      cases h
      have hsized := Painter.resize_sized cellW cellH cols rows hs.sized.clipped
      refine ⟨hsized, hs.timer, hs.still, ?_, ?_, ?_⟩
      all_goals
        intro t ht
        cases ht

/-- A style that the timer runs for blinks. -/
theorem blinking_of_odd {style : CursorStyle} (h : cursorStyleNumber style &&& 1 ≠ 0) :
    style.blinking = true := by
  rcases style with ⟨shape, blinking⟩
  cases blinking with
  | true => rfl
  | false => cases shape <;> exact absurd rfl h

/-! ## Phases -/

section Phases

variable {s : State A} {t : Screen A}

/-- Without the overlay, what is seen is the back buffer. -/
theorem exact_on_iff (hs : Drawn s) (ht : t ∈ s.last) (hon : ¬ s.OffPhase) :
    (∀ x y, s.painted x y = true ↔ s.Denotes t x y) ↔
      (t.Shown → TableFits s.painter.cellH t.style) := by
  have hvisible : s.blinkVisible = true := by
    cases htimer : s.blinkTimer with
    | false => exact hs.still htimer
    | true => simpa [State.OffPhase, htimer] using hon
  have hphase : s.InPhase t := fun _ _ => hvisible
  have hpixel : ∀ x y, (s.painted x y = true ↔ s.Denotes t x y) ↔
      (t.Shown → ((cursorRegion s.painter.cellW s.painter.cellH
        (drawnShape (cursorStyleNumber t.style)) t.col t.row).Has x y ↔
          (cursorRegion s.painter.cellW s.painter.cellH t.style.shape t.col t.row).Has x y)) := by
    intro x y
    simp only [State.painted, hon, false_and, decide_false, Bool.xor_false, hs.buffer t ht,
      State.Denotes, hphase, true_and]
    exact and_congr_right_iff
  simp only [hpixel]
  constructor
  · intro h hshown
    exact (drawnShape_iff hs.sized.cellW (hs.strip t ht) hshown.2.1).1 fun x y => h x y hshown
  · intro h x y hshown
    exact (drawnShape_iff hs.sized.cellW (hs.strip t ht) hshown.2.1).2 (h hshown) x y

/-- In the off phase the overlay hides the cursor of the back buffer. -/
theorem exact_off_iff (hs : Drawn s) (ht : t ∈ s.last) (hoff : s.OffPhase) :
    (∀ x y, s.painted x y = true ↔ s.Denotes t x y) ↔
      t.Shown ∧ s.lastX = t.col ∧ s.lastY = t.row ∧ s.cursorBlink = true := by
  have hstyle := hs.style t ht
  have hblinking : t.style.blinking = true := blinking_of_odd (hstyle ▸ hs.timer hoff.1)
  have hphase : s.InPhase t ↔ s.cursorBlink = false := by
    simp [State.InPhase, hblinking, hoff.2]
  have hoverlay : s.overlay = cursorRegion s.painter.cellW s.painter.cellH
      (drawnShape (cursorStyleNumber t.style)) s.lastX s.lastY := by
    rw [State.overlay, hstyle, cursorRect_eq (hs.strip t ht)]
  constructor
  · intro h
    -- a pixel of the remembered cursor
    have hcorner := cursorRegion_corner hs.sized.cellW hs.sized.cellH
      (drawnShape (cursorStyleNumber t.style)) s.lastX s.lastY
    have hpixel := h (s.lastX * s.painter.cellW)
      (s.lastY * s.painter.cellH + (s.painter.cellH - 1))
    have hbuffer := hs.buffer t ht (s.lastX * s.painter.cellW)
      (s.lastY * s.painter.cellH + (s.painter.cellH - 1))
    rw [State.painted, hoverlay] at hpixel
    simp only [hoff, hcorner, and_self, decide_true, Bool.xor_true, Bool.not_eq_true'] at hpixel
    have hcell := cursorRegion_cell hcorner
    have hinverted : s.painter.inverted (s.lastX * s.painter.cellW)
        (s.lastY * s.painter.cellH + (s.painter.cellH - 1)) = true := by
      by_contra hnot
      rcases hpixel.1 (by simpa using hnot) with ⟨hshown, -, hregion⟩
      have hcell' := cursorRegion_cell hregion
      have hx : s.lastX = t.col := hcell.1.symm.trans hcell'.1
      have hy : s.lastY = t.row := hcell.2.symm.trans hcell'.2
      exact hnot (hbuffer.2 ⟨hshown, hx ▸ hy ▸ hcorner⟩)
    -- so it is one of the cursor in the buffer, and both lie in one cell
    rcases hbuffer.1 hinverted with ⟨hshown, hregion⟩
    have hcell' := cursorRegion_cell hregion
    have hx : s.lastX = t.col := hcell.1.symm.trans hcell'.1
    have hy : s.lastY = t.row := hcell.2.symm.trans hcell'.2
    refine ⟨hshown, hx, hy, ?_⟩
    -- with `CursorBlink` off the cursor has no phase in which it is not to be seen
    by_contra hblink
    have hcorner' := cursorRegion_corner hs.sized.cellW hs.sized.cellH t.style.shape s.lastX s.lastY
    have hdenotes : s.Denotes t (s.lastX * s.painter.cellW)
        (s.lastY * s.painter.cellH + (s.painter.cellH - 1)) :=
      ⟨hshown, hphase.2 (by simpa using hblink), by rw [← hx, ← hy]; exact hcorner'⟩
    rw [hpixel.2 hdenotes] at hinverted
    cases hinverted
  · rintro ⟨hshown, hx, hy, hblink⟩ x y
    have hnot : ¬ s.Denotes t x y := by
      rintro ⟨-, hin, -⟩
      rw [hphase, hblink] at hin
      cases hin
    refine iff_of_false ?_ hnot
    have hbuffer : s.painter.inverted x y = true ↔ s.overlay.Has x y := by
      rw [hs.buffer t ht, hoverlay, hx, hy]
      exact and_iff_right hshown
    simp [State.painted, hoff, ← hbuffer]

end Phases

/-- A control with cells of 8 by 16 pixels. -/
def opened : State plain := State.started 8 16 2 1 ⟨0xCCCCCC, 0⟩

theorem opened_init : (machine plain).Init opened := ⟨8, 16, 2, 1, ⟨0xCCCCCC, 0⟩, rfl⟩

/-- A terminal after some output. -/
def fed (bytes : List UInt8) : TermHost Plain := (TermHost.new plain 2 1 0).advance plain bytes

/-- A new terminal: its cursor is a steady block. -/
def steadyBlock : Screen plain := ⟨fed [], by decide +kernel⟩

/-- After `ESC [ 1 SP q`. -/
def blinkingBlock : Screen plain :=
  ⟨fed [0x1B, 0x5B, 0x31, 0x20, 0x71], by decide +kernel⟩

/-- After `ESC [ 1 SP q` and `ESC [ ? 25 l`. -/
def hiddenBlock : Screen plain :=
  ⟨fed [0x1B, 0x5B, 0x31, 0x20, 0x71, 0x1B, 0x5B, 0x3F, 0x32, 0x35, 0x6C], by decide +kernel⟩

/-- The event of a steady block. -/
def steadyRun : List (Label plain) := [.render steadyBlock HostBackend.new]

/-- A cursor blinks, and is hidden while it is off. -/
def hidingRun : List (Label plain) :=
  [.render blinkingBlock HostBackend.new, .blinkTick, .render hiddenBlock HostBackend.new]

end RataShell.Cursor
