import RataShell.Term.Backend

/-!
# Delivered frames

A session whose host calls operations one after the other: which of them leave
the last frame given to `on_render` as a snapshot would now show the terminal.
All operations but `resize` and `search_next` end in `request_render`.

* `View.at`: what a snapshot shows of a grid.
* `fresh_call_iff`: one call, from a state that is shown.
* `fresh_iff`: all calls of a run.
* `search_unseen`: a search that scrolls and leaves the scroll undelivered.
-/

namespace RataShell.Term

open Sizes (Size)

variable {T R : Type}

/-! ## What a snapshot shows -/

/-- The size, the cells and the cursor of a frame. -/
structure View where
  cols : UInt16
  rows : UInt16
  cells : List HostCell
  cursorX : UInt16
  cursorY : UInt16
  cursorVisible : Bool
  cursorStyle : UInt8
deriving DecidableEq, Repr

/-- What shows of a grid at its display offset. -/
def View.at (size : Size) (style : CursorStyle) (showCursor : Bool) (g : Grid) : View where
  cols := UInt16.ofNat size.cols
  rows := UInt16.ofNat size.lines
  cells := (List.range size.lines).flatMap fun row : Nat => (List.range size.cols).map fun col =>
    TermHost.hostCell (g.cell (row - g.displayOffset) col)
  cursorX := UInt16.ofNat (min g.cursor.column (size.cols - 1))
  cursorY := UInt16.ofNat
    (min (max (g.cursor.line + g.displayOffset) 0) (size.lines - 1)).toNat
  cursorVisible := showCursor && decide (style.shape ≠ .Hidden) &&
    decide (0 ≤ g.cursor.line + g.displayOffset ∧ g.cursor.line + g.displayOffset < size.lines)
  cursorStyle := TermHost.cursorStyleNumber style

/-- The size, the cells and the cursor of a delivered frame. -/
def RenderSnapshot.view (snap : RenderSnapshot) : View where
  cols := snap.cols
  rows := snap.rows
  cells := snap.cells
  cursorX := snap.cursorX
  cursorY := snap.cursorY
  cursorVisible := snap.cursorVisible
  cursorStyle := snap.cursorStyle

namespace TermHost

variable (A : Alacritty T R)

/-- What a snapshot would show now. -/
def view (t : TermHost T) : View where
  cols := (t.snapshotMeta A).cols
  rows := (t.snapshotMeta A).rows
  cells := t.cells A
  cursorX := (t.snapshotMeta A).cursorX
  cursorY := (t.snapshotMeta A).cursorY
  cursorVisible := (t.snapshotMeta A).cursorVisible
  cursorStyle := (t.snapshotMeta A).cursorStyle

/-- What it would show at another display offset. -/
def viewAt (offset : Nat) (t : TermHost T) : View :=
  View.at t.size (A.cursorStyle t.term) (A.mode t.term).showCursor
    { A.grid t.term with displayOffset := offset }

/-- The grid has the size of the host. -/
def Sized (t : TermHost T) : Prop := A.dims t.term = (t.size.cols, t.size.lines)

/-- The display offset that brings a line of the grid into view. -/
def offsetFor (line : Int) (t : TermHost T) : Nat :=
  let off : Int := t.displayOffset A
  if line < -off then (Scroll.Delta (-off - line)).offset (A.grid t.term)
  else if line > t.size.lines - 1 - off then
    (Scroll.Delta (t.size.lines - 1 - off - line)).offset (A.grid t.term)
  else t.displayOffset A

/-- The match that a call of `search_next` finds. -/
def target (pattern : String) (forward : Bool) (t : TermHost T) : Option Match :=
  if pattern = "" then none
  else (A.regex pattern).bind fun regex => (t.setPattern pattern).find A regex forward

variable {A}

theorem view_eq (t : TermHost T) :
    t.view A =
      View.at t.size (A.cursorStyle t.term) (A.mode t.term).showCursor (A.grid t.term) := by
  simp only [view, View.at, cells, viewCells, viewCell, List.map_flatMap, List.map_map,
    snapshotMeta, cursorLine, CursorInView, displayOffset]
  rfl

/-- The search state and the hyperlinks do not show. -/
theorem view_of_term {t t' : TermHost T} (hsize : t'.size = t.size) (hterm : t'.term = t.term) :
    t'.view A = t.view A := by
  rw [view_eq, view_eq, hsize, hterm]

theorem view_scroll (hA : Lawful A) (sc : Scroll) (t : TermHost T) :
    ({ t with term := A.scrollDisplay sc t.term } : TermHost T).view A =
      t.viewAt A (sc.offset (A.grid t.term)) := by
  rw [view_eq, viewAt, hA.scroll_grid, hA.scroll_mode, hA.scroll_cursorStyle]

theorem view_showLine (hA : Lawful A) (line : Int) (t : TermHost T) :
    (t.showLine A line).view A = t.viewAt A (t.offsetFor A line) := by
  unfold showLine offsetFor
  simp only
  split
  · exact view_scroll hA _ t
  · split
    · exact view_scroll hA _ t
    · exact t.view_eq

/-- A search shows the line of its match, if it finds one. -/
theorem view_searchNext (hA : Lawful A) (pattern : String) (forward : Bool) (t : TermHost T) :
    (t.searchNext A pattern forward).1.view A =
      match t.target A pattern forward with
      | none => t.view A
      | some m => t.viewAt A (t.offsetFor A m.start.line) := by
  have hsize := setPattern_size pattern t
  have hterm := setPattern_term pattern t
  unfold searchNext target
  split
  · rfl
  · cases A.regex pattern with
    | none => rfl
    | some regex =>
        simp only [Option.bind_some]
        cases (t.setPattern pattern).find A regex forward with
        | none => exact view_of_term hsize hterm
        | some m =>
            simp only
            rw [view_showLine hA]
            simp only [viewAt, offsetFor, displayOffset, hsize, hterm]
            rfl

end TermHost

/-! ## Sessions -/

/-- A session: its terminal host and backend, whether `on_render` is registered,
the last frame given to the `on_render` now registered, and whether an operation
has returned since. -/
structure Session (T : Type) where
  host : TermHost T
  backend : HostBackend
  onRender : Bool
  frame : Option RenderSnapshot
  returned : Bool

/-- A batch of output handled by the pump, a call of the host or new callbacks. -/
inductive SessionLabel where
  | output (chunks : List (List UInt8))
  | call (op : Op)
  | requestRender
  | sendKey
  | setCallbacks (onRender : Bool)
deriving DecidableEq, Repr

/-- The operations that end in `request_render`. -/
def Op.renders : Op → Bool
  | .resize _ _ | .searchNext _ _ => false
  | _ => true

namespace Session

variable (A : Alacritty T R)

/-- `Session::request_render`, and the render part of the pump. -/
def requestRender (s : Session T) : Session T :=
  { s with
    host := s.host.snapshot A
    backend := HostBackend.remember A s.host
    frame := if s.onRender then some (s.backend.render A s.host) else s.frame }

/-- The operations of `Session`. -/
def call (op : Op) (s : Session T) : Session T :=
  let s' := { s with host := op.host A s.host, returned := s.onRender }
  if op.renders then s'.requestRender A else s'

def step (a : SessionLabel) (s : Session T) : Session T :=
  match a with
  | .output chunks =>
      { s with host := chunks.foldl (fun t bytes => t.advance A bytes) s.host }.requestRender A
  | .call op => s.call A op
  | .requestRender => s.requestRender A
  -- `send_key` takes a snapshot of its own to read the mode
  | .sendKey => { s with host := s.host.snapshot A }
  | .setCallbacks onRender => { s with onRender := onRender, frame := none, returned := false }

/-- `Session::new`: nothing is registered. -/
def new (cols rows : UInt16) (scrollback : Nat) : Session T where
  host := TermHost.new A cols rows scrollback
  backend := HostBackend.new
  onRender := false
  frame := none
  returned := false

def machine : Lts.Machine (Session T) SessionLabel where
  Init s := ∃ cols rows scrollback, s = new A cols rows scrollback
  step a s := some (s.step A a)

/-- The last frame shows what a snapshot would show now. -/
def Fresh (s : Session T) : Prop := s.frame.map RenderSnapshot.view = some (s.host.view A)

/-- Once an operation has returned, the last frame is fresh. -/
def Delivered (s : Session T) : Prop := s.returned = true → s.Fresh A

/-- The operation leaves the view where it is: a resize to the size there is, or a
search whose match, if any, needs no scroll that shows. -/
def Still (op : Op) (t : TermHost T) : Prop :=
  match op with
  | .resize cols rows => Size.new cols.toNat rows.toNat = t.size
  | .searchNext pattern forward =>
      ∀ m ∈ t.target A pattern forward, t.viewAt A (t.offsetFor A m.start.line) = t.view A
  | _ => False

/-- Where `on_render` is registered, each operation renders, or the view is fresh
and stays still. -/
def Renders (a : SessionLabel) (s : Session T) : Prop :=
  match a with
  | .call op => s.onRender = true → op.renders = true ∨ s.Fresh A ∧ Still A op s.host
  | _ => True

instance (s : Session T) : Decidable (s.Fresh A) :=
  inferInstanceAs (Decidable (s.frame.map RenderSnapshot.view = some (s.host.view A)))

instance (op : Op) (t : TermHost T) : Decidable (Still A op t) :=
  match op with
  | .resize cols rows => inferInstanceAs (Decidable (Size.new cols.toNat rows.toNat = t.size))
  | .searchNext pattern forward => inferInstanceAs (Decidable
      (∀ m ∈ t.target A pattern forward, t.viewAt A (t.offsetFor A m.start.line) = t.view A))
  | .scroll _ | .scrollToTop | .scrollToBottom | .clearHistory | .resetState
  | .selectionStart _ _ _ | .selectionExtend _ _ | .selectionClear | .toggleViMode
  | .viMotion _ => isFalse id

instance (a : SessionLabel) (s : Session T) : Decidable (Renders A a s) :=
  match a with
  | .call op => inferInstanceAs (Decidable
      (s.onRender = true → op.renders = true ∨ s.Fresh A ∧ Still A op s.host))
  | .output _ | .requestRender | .sendKey | .setCallbacks _ => isTrue trivial

/-- The grid has the size of the host, frames go to a registered `on_render` only,
and are fresh until an operation returns. -/
structure Valid (s : Session T) : Prop where
  sized : s.host.Sized A
  registered : s.onRender = false → s.frame = none ∧ s.returned = false
  fresh : s.returned = false → s.frame = none ∨ s.Fresh A

variable {A}

/-! ## One call -/

/-- A frame leaves the terminal as the operation does. -/
theorem call_term (op : Op) (s : Session T) :
    (s.call A op).host.term = (op.host A s.host).term := by
  unfold call
  split <;> rfl

theorem sized_showLine (hA : Lawful A) (line : Int) {t : TermHost T} (ht : t.Sized A) :
    (t.showLine A line).Sized A := by
  rcases t.showLine_cases A line with hsame | ⟨sc, hscroll⟩
  · rwa [hsame]
  · rw [hscroll]
    exact (hA.scroll_dims _ _).trans ht

/-- No operation parts the size of the host and that of the grid. -/
theorem sized_call (hA : Lawful A) (op : Op) {t : TermHost T} (ht : t.Sized A) :
    (op.host A t).Sized A := by
  have hpattern : ∀ pattern, (t.setPattern pattern).Sized A := by
    intro pattern
    rw [TermHost.Sized, TermHost.setPattern_term, TermHost.setPattern_size]
    exact ht
  cases op with
  | resize cols rows => exact hA.resize_dims _ _
  | scroll lines => exact (hA.scroll_dims _ _).trans ht
  | scrollToTop => exact (hA.scroll_dims _ _).trans ht
  | scrollToBottom => exact (hA.scroll_dims _ _).trans ht
  | clearHistory => exact (hA.clearSaved_dims _).trans ht
  | resetState => exact (hA.advance_dims _ _).trans ht
  | selectionStart col row kind => exact (hA.selectionStart_dims _ _ _).trans ht
  | selectionExtend col row => exact (hA.selectionUpdate_dims _ _).trans ht
  | selectionClear => exact (hA.selectionClear_dims _).trans ht
  | toggleViMode => exact (hA.toggleViMode_dims _).trans ht
  | viMotion kind =>
      show (t.viMotion A kind).Sized A
      unfold TermHost.viMotion
      split
      · exact (hA.viMotion_dims _ _).trans ht
      · exact ht
  | searchNext pattern forward =>
      show (t.searchNext A pattern forward).1.Sized A
      unfold TermHost.searchNext
      split
      · exact ht
      · split
        · exact ht
        · split
          · exact hpattern pattern
          · exact sized_showLine hA _ (hpattern pattern)

theorem sized_output (hA : Lawful A) (chunks : List (List UInt8)) {t : TermHost T}
    (ht : t.Sized A) : (chunks.foldl (fun t bytes => t.advance A bytes) t).Sized A := by
  induction chunks generalizing t with
  | nil => exact ht
  | cons bytes chunks ih => exact ih (t := t.advance A bytes) ((hA.advance_dims _ _).trans ht)

theorem requestRender_fresh {s : Session T} (hon : s.onRender = true) :
    (s.requestRender A).Fresh A := by
  simp only [Fresh, requestRender, hon, if_true, Option.map_some]
  rfl

/-- A resize shows unless the size is the same. -/
theorem view_resize (hA : Lawful A) {t : TermHost T} (ht : t.Sized A) (cols rows : UInt16) :
    (t.resize A cols rows).view A = t.view A ↔ Size.new cols.toNat rows.toNat = t.size := by
  constructor
  · intro hview
    have hcols : ((t.resize A cols rows).view A).cols.toNat = (t.view A).cols.toNat := by rw [hview]
    have hrows : ((t.resize A cols rows).view A).rows.toNat = (t.view A).rows.toNat := by rw [hview]
    have hwide : ∀ t : TermHost T, (t.view A).cols.toNat = t.size.cols := fun t =>
      Mirror.meta_cols (A := A) t
    have hhigh : ∀ t : TermHost T, (t.view A).rows.toNat = t.size.lines := fun t =>
      Mirror.meta_rows (A := A) t
    rw [hwide, hwide] at hcols
    rw [hhigh, hhigh] at hrows
    show (t.resize A cols rows).size = t.size
    cases hsize : (t.resize A cols rows).size
    cases hsize' : t.size
    simp_all
  · intro hsize
    have hterm : A.resize (Size.new cols.toNat rows.toNat) t.term = t.term := by
      -- the grid has this size, so alacritty does not reflow it
      refine hA.resize_same _ _ ?_
      rw [hsize]
      exact ht
    exact TermHost.view_of_term hsize hterm

/-- What an operation that does not render leaves in the frame is fresh exactly
when the view was fresh and stays still. -/
theorem fresh_call_iff (hA : Lawful A) {s : Session T} {op : Op} (hs : s.Valid A)
    (hfresh : s.Fresh A) (hop : op.renders = false) :
    (s.call A op).Fresh A ↔ Still A op s.host := by
  have hcall : (s.call A op).Fresh A ↔ (op.host A s.host).view A = s.host.view A := by
    have hview : s.frame.map RenderSnapshot.view = some (s.host.view A) := hfresh
    simp only [Fresh, call, hop, Bool.false_eq_true, if_false, hview, Option.some.injEq]
    exact eq_comm
  rw [hcall]
  -- only two operations do not render
  cases op with
  | resize cols rows => exact view_resize hA hs.sized cols rows
  | searchNext pattern forward =>
      show ((s.host.searchNext A pattern forward).1.view A = _) ↔ _
      rw [TermHost.view_searchNext hA]
      simp only [Still]
      cases s.host.target A pattern forward <;> simp
  | _ => cases hop

/-- No step breaks what holds of a session whatever its host calls. -/
theorem step_valid (hA : Lawful A) (a : SessionLabel) {s : Session T} (hs : s.Valid A) :
    (s.step A a).Valid A := by
  have hrender : ∀ s : Session T, s.host.Sized A →
      (s.onRender = false → s.frame = none ∧ s.returned = false) → (s.requestRender A).Valid A := by
    intro s hsized hoff
    refine ⟨hsized, ?_, ?_⟩
    · intro hon
      rcases hoff hon with ⟨hframe, hreturned⟩
      exact ⟨by simp only [requestRender, show s.onRender = false from hon, hframe]; rfl, hreturned⟩
    · intro _
      cases hon : s.onRender with
      | true => exact .inr (requestRender_fresh hon)
      | false =>
          refine .inl ?_
          simp only [requestRender, hon, (hoff hon).1]
          rfl
  cases a with
  | output chunks => exact hrender _ (sized_output hA chunks hs.sized) hs.registered
  | call op =>
      show (s.call A op).Valid A
      have hoff : s.onRender = false → s.frame = none ∧ s.onRender = false := by
        intro hon
        exact ⟨(hs.registered hon).1, hon⟩
      unfold call
      simp only
      split
      · exact hrender _ (sized_call hA op hs.sized) hoff
      · exact ⟨sized_call hA op hs.sized, hoff, fun hreturned => .inl (hoff hreturned).1⟩
  | requestRender => exact hrender s hs.sized hs.registered
  | sendKey => exact ⟨hs.sized, hs.registered, hs.fresh⟩
  | setCallbacks onRender =>
      exact ⟨hs.sized, fun _ => ⟨rfl, rfl⟩, fun _ => .inl rfl⟩

/-- From a delivered state a step leads to one exactly when its call renders, or
the view is fresh and stays still. -/
theorem delivered_step_iff (hA : Lawful A) {a : SessionLabel} {s : Session T} (hs : s.Valid A)
    (hdelivered : s.Delivered A) : (s.step A a).Delivered A ↔ Renders A a s := by
  have hrender : ∀ s : Session T, (s.returned = true → s.onRender = true) →
      (s.requestRender A).Delivered A := fun s hon hreturned => requestRender_fresh (hon hreturned)
  have hon : s.returned = true → s.onRender = true := by
    intro hreturned
    by_contra hoff
    rw [(hs.registered (Bool.eq_false_iff.2 hoff)).2] at hreturned
    cases hreturned
  cases a with
  | output chunks => exact iff_of_true (hrender _ hon) trivial
  | requestRender => exact iff_of_true (hrender s hon) trivial
  | sendKey => exact iff_of_true hdelivered trivial
  | setCallbacks onRender => exact iff_of_true (fun h => by cases h) trivial
  | call op =>
      show (s.call A op).Delivered A ↔ (s.onRender = true → op.renders = true ∨ _)
      cases hop : op.renders with
      | true =>
          refine iff_of_true ?_ (fun _ => .inl rfl)
          simp only [call, hop, if_true]
          exact hrender _ id
      | false =>
          have hreturned : (s.call A op).returned = s.onRender := by simp [call, hop]
          rw [Delivered, hreturned]
          refine imp_congr_right fun _ => ?_
          by_cases hfresh : s.Fresh A
          · simp [fresh_call_iff hA hs hfresh hop, hfresh]
          · -- nothing has been delivered yet, and this call delivers nothing
            have hframe : s.frame = none := by
              refine (hs.fresh ?_).resolve_right hfresh
              by_contra hreturned
              exact hfresh (hdelivered (Bool.not_eq_false _ ▸ hreturned))
            simp [Fresh, call, hop, hframe]

/-- In a run, once an operation has returned to a host with `on_render` the last
frame shows what a snapshot would show, exactly when each such operation renders,
or finds the view fresh and leaves it still. -/
theorem fresh_iff (hA : Lawful A) (cols rows : UInt16) (scrollback : Nat) (as : List SessionLabel) :
    (machine A).Along (Delivered A) (new A cols rows scrollback) as ↔
      (machine A).Meets (Renders A) (new A cols rows scrollback) as := by
  refine Lts.Machine.along_iff_meets (I := Valid A) ?_ ?_ as ?_ ?_
  · intro a s s' hstep hs
    cases hstep
    exact step_valid hA a hs
  · intro a s s' hstep hs hdelivered
    cases hstep
    exact delivered_step_iff hA hs hdelivered
  · exact ⟨hA.new_dims _ _, fun _ => ⟨rfl, rfl⟩, fun _ => .inl rfl⟩
  · intro hreturned
    cases hreturned

/-- `x` has moved up into the history: a search for it scrolls there, and the host
keeps the frame from before. -/
theorem search_unseen :
    ∃ s, (machine plain).Reachable (fun _ _ => True) s ∧ s.onRender = true ∧ s.Fresh plain ∧
      ¬ (s.call plain (.searchNext "x" false)).Fresh plain := by
  have hinit : (machine plain).Init (new plain 10 2 100) := ⟨10, 2, 100, rfl⟩
  have hmeets : (machine plain).Meets (fun _ _ => True) (new plain 10 2 100)
      [.setCallbacks true, .output [[0x78, 13, 10, 13, 10, 13, 10]]] := by
    decide +kernel
  have htest : ((machine plain).run (new plain 10 2 100)
      [.setCallbacks true, .output [[0x78, 13, 10, 13, 10, 13, 10]]]).any (fun s =>
        decide (s.onRender = true ∧ s.Fresh plain ∧
          ¬ (s.call plain (.searchNext "x" false)).Fresh plain)) = true := by
    decide +kernel
  rcases Lts.Machine.exists_reachable _ _ hinit hmeets htest with ⟨s, -, hs, hunseen⟩
  exact ⟨s, hs, of_decide_eq_true hunseen⟩

/-- A search within the view, a resize to the size there is and calls that render. -/
theorem fresh_run :
    (machine plain).Along (Delivered plain) (new plain 10 2 100)
      [.setCallbacks true, .output [[0x78, 13, 10]], .call (.searchNext "x" false),
        .call (.resize 10 2), .call (.scroll 1), .call .resetState] :=
  (fresh_iff plain_lawful 10 2 100 _).2 (by decide +kernel)

end Session

end RataShell.Term
