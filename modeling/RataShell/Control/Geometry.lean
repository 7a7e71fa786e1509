import RataShell.Lib.Machine
import RataShell.Session.Resize
import RataShell.Control.Parts
import RataShell.Term.Plain

/-!
# Sizes of the grids

The window, the painter and the session each have a size in cells. The session gets that of
the window; the painter gets it too, but takes that of every frame it draws.

* `step_fits`: the session always has the size of the window.
* `grids_agree_iff`: when the painter has the size of the session, along a run.
-/

namespace RataShell.Input.Geometry

open Control
open Sizes (Size)
open Term (Alacritty Op Plain Session TermHost plain)

variable {T R : Type} {A : Alacritty T R}

/-! ## Sizes -/

/-- What sizes depend on: the painter's grid and cells, the window and the session's
grid. -/
structure Sizing where
  cols : Int
  rows : Int
  cellW : Int
  cellH : Int
  clientWidth : Int
  clientHeight : Int
  grid : Option Size
deriving DecidableEq, Repr

def sizing (c : Control T) : Sizing :=
  ⟨c.cols, c.rows, c.cellW, c.cellH, c.clientWidth, c.clientHeight,
    c.session.map fun s => s.host.size⟩

/-- The size of the window in cells, as a session takes it. -/
def windowGrid (c : Control T) : Size :=
  Size.new (word c.calcCols).toNat (word c.calcRows).toNat

/-- The session has the size of the window. -/
def Fits (c : Control T) : Prop := ∀ s ∈ c.session, s.host.size = windowGrid c

/-- The painter has the size of the session. -/
def Agrees (c : Control T) : Prop :=
  ∀ s ∈ c.session, c.cols = s.host.size.cols ∧ c.rows = s.host.size.lines

/-- The window is two columns wide, and its size fits a `Word`. -/
def InRange (c : Control T) : Prop := 2 ≤ c.calcCols ∧ c.calcCols < 65536 ∧ c.calcRows < 65536

instance (c : Control T) : Decidable (InRange c) := inferInstanceAs (Decidable (_ ∧ _ ∧ _))

theorem word_toNat (n : Int) : (word n).toNat = (n % 65536).toNat := by
  have hlt : (n % 65536).toNat < 65536 := by omega
  rw [word]
  exact UInt16.toNat_ofNat_of_lt' hlt

/-- A session has the size of the window itself exactly where the latter is in range. -/
theorem windowGrid_eq_iff (c : Control T) :
    c.calcCols = (windowGrid c).cols ∧ c.calcRows = (windowGrid c).lines ↔ InRange c := by
  have hcols : 1 ≤ c.calcCols := le_max_left _ _
  have hrows : 1 ≤ c.calcRows := le_max_left _ _
  simp only [windowGrid, Size.new, word_toNat, InRange]
  omega

/-! ## What keeps the sizes -/

theorem host_size (op : Op) (hop : ∀ cols rows, op ≠ .resize cols rows) (t : TermHost T) :
    (op.host A t).size = t.size := by
  cases op with
  | resize cols rows => exact absurd rfl (hop cols rows)
  | viMotion kind =>
      simp only [Op.host, TermHost.viMotion]
      split <;> rfl
  | searchNext pattern forward =>
      simp only [Op.host, TermHost.searchNext]
      split
      · rfl
      · split
        · rfl
        · split
          · simp
          · simp
  | _ => rfl

theorem call_size (op : Op) (s : Session T) :
    (s.call A op).host.size = (op.host A s.host).size := by
  unfold Session.call
  split <;> rfl

theorem output_size (chunks : List (List UInt8)) (s : Session T) :
    (s.step A (.output chunks)).host.size = s.host.size := by
  have hfold : ∀ t : TermHost T,
      (chunks.foldl (fun t bytes => t.advance A bytes) t).size = t.size := by
    induction chunks with
    | nil => exact fun _ => rfl
    | cons bytes chunks ih => exact fun t => ih (t.advance A bytes)
  exact hfold s.host

theorem sizing_part : Part A (sizing (T := T)) where
  call op c hop := by
    unfold Control.call
    split
    · rfl
    · next s hs => simp [sizing, hs, call_size, host_size op hop]
  output chunks c := by
    unfold Control.output
    split
    · rfl
    · next s hs => simp [sizing, hs, output_size]
  sendText _ _ := rfl
  sendKey vk mods c := by
    simp only [sizing, Control.rataSendKey, Option.map_map]
    rfl
  scrolled _ _ _ := rfl
  searching _ _ _ := rfl
  dragging _ _ _ _ _ _ _ := rfl
  flags _ _ _ _ := rfl

/-- The start of a selection keeps the sizes. -/
theorem sizing_mouseDown (button : MouseButton) (shift : ShiftState) (ax ay : Int) (now : UInt32)
    (doubleClick : Int) (c : Control T) :
    sizing (c.mouseDown A button shift ax ay now doubleClick) = sizing c := by
  cases hcell : c.selectionCell A button shift ax ay with
  | none => exact sizing_part.rule.mouseDown hcell now doubleClick
  | some cell =>
      rcases cell with ⟨col, row⟩
      rw [mouseDown_selection hcell]
      have hpart := sizing_part (T := T) (A := A)
      exact (hpart.dragging _ _ true _ _ _ _).trans (hpart.call _ _ (by simp))

theorem fits_congr {c c' : Control T} (h : sizing c' = sizing c) : Fits c' ↔ Fits c := by
  simp only [sizing, Sizing.mk.injEq] at h
  rcases h with ⟨-, -, hcellW, hcellH, hwidth, hheight, hgrid⟩
  have hwindow : windowGrid c' = windowGrid c := by
    simp only [windowGrid, calcCols, calcRows, hcellW, hcellH, hwidth, hheight]
  have hfits : ∀ c : Control T, Fits c ↔
      ∀ size ∈ c.session.map fun s => s.host.size, size = windowGrid c := by
    intro c
    simp [Fits]
  rw [hfits, hfits, hgrid, hwindow]

theorem agrees_congr {c c' : Control T} (h : sizing c' = sizing c) : Agrees c' ↔ Agrees c := by
  simp only [sizing, Sizing.mk.injEq] at h
  rcases h with ⟨hcols, hrows, -, -, -, -, hgrid⟩
  have hagrees : ∀ c : Control T, Agrees c ↔
      ∀ size ∈ c.session.map fun s => s.host.size, c.cols = size.cols ∧ c.rows = size.lines := by
    intro c
    simp [Agrees]
  rw [hagrees, hagrees, hgrid, hcols, hrows]

/-! ## What changes them -/

/-- A change of the window resizes the painter and the session. -/
theorem applyResize_session {c : Control T} {s : Session T}
    (hs : s ∈ (c.applyResize A).session) :
    c.session.isSome = true ∧ s.host.size = windowGrid c := by
  simp only [applyResize, call_session, Option.mem_def, Option.map_eq_some_iff] at hs
  rcases hs with ⟨s₀, hs₀, rfl⟩
  exact ⟨by rw [hs₀]; rfl, call_size _ s₀⟩

theorem applyResize_window (c : Control T) :
    (c.applyResize A).cols = c.calcCols ∧ (c.applyResize A).rows = c.calcRows ∧
      windowGrid (c.applyResize A) = windowGrid c := by
  have haside : Aside fun c : Control T => (c.cols, c.rows, windowGrid c) := fun _ _ _ _ => rfl
  have hcall := haside.call (A := A) (c := { c with cols := c.calcCols, rows := c.calcRows })
    (.resize (word c.calcCols) (word c.calcRows))
  simp only [Prod.mk.injEq] at hcall
  exact hcall

theorem applyResize_fits (c : Control T) : Fits (c.applyResize A) := by
  intro s hs
  rw [(applyResize_window c).2.2]
  exact (applyResize_session hs).2

theorem applyResize_agrees_iff (c : Control T) :
    Agrees (c.applyResize A) ↔ (c.session.isSome = true → InRange c) := by
  rcases applyResize_window (A := A) c with ⟨hcols, hrows, -⟩
  rw [← windowGrid_eq_iff, Agrees, hcols, hrows]
  constructor
  · intro h hsome
    rcases Option.isSome_iff_exists.1 hsome with ⟨s₀, hs₀⟩
    have hs : s₀.call A (.resize (word c.calcCols) (word c.calcRows)) ∈
        (c.applyResize A).session := by simp [applyResize, hs₀]
    have hagrees := h _ hs
    rwa [(applyResize_session hs).2] at hagrees
  · intro h s hs
    rw [(applyResize_session hs).2]
    exact h (applyResize_session hs).1

/-- A new session has the size of the window. -/
theorem createSession_size (scrollback : UInt32) (c : Control T) :
    (c.createSession A scrollback).host.size = windowGrid c := by
  show Size.new (max (word c.calcCols) 1).toNat (max (word c.calcRows) 1).toNat = windowGrid c
  simp only [windowGrid, Size.new, Sizes.max_one_toNat, Size.mk.injEq]
  omega

theorem start_fits {c : Control T} (hc : Fits c) (scrollback : UInt32) :
    Fits (c.start A scrollback) := by
  unfold Control.start
  split
  · exact hc
  · rintro s ⟨⟩
    exact createSession_size scrollback c

theorem start_agrees_iff {c : Control T} (hc : Agrees c) (scrollback : UInt32) :
    Agrees (c.start A scrollback) ↔ (c.active = false → InRange c) := by
  unfold Control.start
  split
  · next hactive => exact iff_of_true hc fun h => by rw [hactive] at h; cases h
  · next hactive =>
      rw [← windowGrid_eq_iff, ← createSession_size (A := A) scrollback c]
      have hfalse : c.active = false := by simpa using hactive
      simp [Agrees, hfalse]

/-- A frame that is drawn gives the painter its size. -/
theorem handleRenderMessage_sizing (c : Control T) :
    sizing (c.handleRenderMessage A) = match c.pendingEvent with
      | none => sizing c
      | some ev => { sizing c with cols := ev.cols.toNat, rows := ev.rows.toNat } := by
  cases h : c.pendingEvent with
  | none => simp only [Control.handleRenderMessage, h]
  | some ev =>
      simp only [Control.handleRenderMessage, h]
      exact sizing_part.updateScrollInfo

/-! ## Runs -/

def machine (A : Alacritty T R) : Lts.Machine (Control T) Label where
  Init := Control.Init
  step := Control.step A

/-- A frame that is drawn has the size of the session, and the window is in range when it
gets a size that a session takes. -/
def Proper : Lts.StepCond (Control T) Label := fun a c =>
  match a with
  | .wmRataRender => ∀ s ∈ c.session, ∀ ev ∈ c.pendingEvent,
      (ev.cols.toNat : Int) = s.host.size.cols ∧ (ev.rows.toNat : Int) = s.host.size.lines
  | .wmSize width height => c.session.isSome = true →
      InRange { c with clientWidth := width, clientHeight := height }
  | .fontChanged cellW cellH => c.session.isSome = true →
      InRange { c with cellW := cellW, cellH := cellH }
  | .start _ => c.active = false → InRange c
  | _ => True

theorem handleRenderMessage_fits {c : Control T} (hc : Fits c) :
    Fits (c.handleRenderMessage A) := by
  have hsizing := handleRenderMessage_sizing (A := A) c
  cases hpending : c.pendingEvent with
  | none =>
      rw [hpending] at hsizing
      exact (fits_congr hsizing).2 hc
  | some ev =>
      rw [hpending] at hsizing
      exact (fits_congr (c := { c with cols := ev.cols.toNat, rows := ev.rows.toNat })
        hsizing).2 hc

theorem handleRenderMessage_agrees_iff {c : Control T} (hc : Agrees c) :
    Agrees (c.handleRenderMessage A) ↔ Proper .wmRataRender c := by
  have hsizing := handleRenderMessage_sizing (A := A) c
  cases hpending : c.pendingEvent with
  | none =>
      rw [hpending] at hsizing
      exact iff_of_true ((agrees_congr hsizing).2 hc) (by simp [Proper, hpending])
  | some ev =>
      rw [hpending] at hsizing
      rw [agrees_congr (c := { c with cols := ev.cols.toNat, rows := ev.rows.toNat }) hsizing]
      simp [Agrees, Proper, hpending]

theorem step_fits {a : Label} {c c' : Control T} (hstep : c.step A a = some c') (hc : Fits c) :
    Fits c' := by
  have hclear : Fits c.clearSent := hc
  by_cases hout : a.outward = false
  · exact (fits_congr (sizing_part.handle hout hstep)).2 hclear
  · cases a with
    | mouseDown button shift ax ay now doubleClick =>
        cases hstep
        exact (fits_congr (sizing_mouseDown button shift ax ay now doubleClick _)).2 hclear
    | wmRataRender =>
        cases hstep
        exact handleRenderMessage_fits hclear
    | wmSize width height | fontChanged cellW cellH =>
        cases hstep
        exact applyResize_fits _
    | start scrollback =>
        cases hstep
        exact start_fits hclear scrollback
    | stop =>
        cases hstep
        rintro s ⟨⟩
    | _ => exact absurd rfl hout

theorem step_agrees_iff {a : Label} {c c' : Control T} (hstep : c.step A a = some c')
    (hc : Agrees c) : Agrees c' ↔ Proper a c := by
  have hclear : Agrees c.clearSent := hc
  by_cases hout : a.outward = false
  · refine iff_of_true ((agrees_congr (sizing_part.handle hout hstep)).2 hclear) ?_
    cases a with
    | wmRataRender | wmSize width height | fontChanged cellW cellH | start scrollback => cases hout
    | _ => trivial
  · cases a with
    | mouseDown button shift ax ay now doubleClick =>
        cases hstep
        exact iff_of_true
          ((agrees_congr (sizing_mouseDown button shift ax ay now doubleClick _)).2 hclear) trivial
    | wmRataRender =>
        cases hstep
        exact handleRenderMessage_agrees_iff hclear
    | wmSize width height | fontChanged cellW cellH =>
        cases hstep
        exact applyResize_agrees_iff _
    | start scrollback =>
        cases hstep
        exact start_agrees_iff hclear scrollback
    | stop =>
        cases hstep
        exact iff_of_true (by rintro s ⟨⟩) trivial
    | _ => exact absurd rfl hout

end RataShell.Input.Geometry
