import Mathlib.Tactic.IntervalCases
import RataShell.Lib.Machine
import RataShell.Control.Parts
import RataShell.Term.Plain

/-!
# Clicks

Windows does not tell a third click, so that `MouseDown` counts the clicks that follow each
other soon and close by. It reads the time from a counter of 32 bits.

* `tick_lt_iff`: what a difference of two counts says about the time between them.
* `kinds_right_iff`: when the clicks of a run select what their place in their series says.
-/

namespace RataShell.Input.Clicks

open Term (Alacritty Plain plain)

variable {T R : Type}

/-! ## Selections -/

/-- The click belongs to the same series as the last one. -/
def again (ax ay : Int) (now : UInt32) (doubleClick : Int) (c : Control T) : Prop :=
  (now - c.lastClickTime).toInt32.toInt < doubleClick ∧
    |ax - c.lastClickX| < 5 ∧ |ay - c.lastClickY| < 5

instance (ax ay : Int) (now : UInt32) (doubleClick : Int) (c : Control T) :
    Decidable (again ax ay now doubleClick c) := inferInstanceAs (Decidable (_ ∧ _))

/-- The count of clicks with this one. -/
def count (ax ay : Int) (now : UInt32) (doubleClick : Int) (c : Control T) : Nat :=
  if again ax ay now doubleClick c then c.consecutiveClicks + 1 else 1

/-- `LKind` for a count of clicks. -/
def kindOf (n : Nat) (alt : Bool) : UInt8 :=
  if n = 2 then 2 else if n = 3 then 3 else if alt then 1 else 0

/-- `LKind`. -/
def kind (shift : ShiftState) (ax ay : Int) (now : UInt32) (doubleClick : Int) (c : Control T) :
    UInt8 :=
  kindOf (count ax ay now doubleClick c) shift.ssAlt

/-- The fields that count clicks. -/
structure Counter where
  time : UInt32
  x : Int
  y : Int
  count : Nat
deriving DecidableEq, Repr

def counter (c : Control T) : Counter :=
  ⟨c.lastClickTime, c.lastClickX, c.lastClickY, c.consecutiveClicks⟩

/-- A selection is started with this kind, and the click is counted. -/
theorem startSelection_eq (A : Alacritty T R) (shift : ShiftState) (ax ay : Int)
    (col row : Nat) (now : UInt32) (doubleClick : Int) (c : Control T) :
    c.startSelection A shift ax ay col row now doubleClick =
      { { c with
          lastClickTime := now
          lastClickX := ax
          lastClickY := ay
          consecutiveClicks := if count ax ay now doubleClick c = 3 then 0
            else count ax ay now doubleClick c }.selectionStart A
              (Control.word (col - 1 : Nat)) (Control.word (row - 1 : Nat))
              (kind shift ax ay now doubleClick c) with
        selectingDrag := true } := rfl

/-! ## Runs -/

/-- A click that starts a selection, with its time in milliseconds since Windows started
and the kind that it selects. -/
structure Click where
  x : Int
  y : Int
  time : Nat
  alt : Bool
  kind : UInt8
deriving DecidableEq, Repr

/-- A control with the clicks that have started a selection, the last one first. -/
structure State (T : Type) where
  control : Control T
  clicks : List Click

/-- A press at some time, or another message. -/
inductive TimedLabel where
  | press (button : MouseButton) (shift : ShiftState) (ax ay : Int) (time : Nat)
  | other (a : Label)
deriving DecidableEq, Repr

def isPress : Label → Bool
  | .mouseDown _ _ _ _ _ _ => true
  | _ => false

section Machine

variable (A : Alacritty T R) (doubleClick : Nat)

/-- The clicks after a press. -/
def clicksAfter (button : MouseButton) (shift : ShiftState) (ax ay : Int) (time : Nat)
    (s : State T) : List Click :=
  match s.control.clearSent.selectionCell A button shift ax ay with
  | none => s.clicks
  | some _ =>
      ⟨ax, ay, time, shift.ssAlt, kind shift ax ay (UInt32.ofNat time) doubleClick s.control⟩ ::
        s.clicks

/-- Time does not run backwards; `GetTickCount` counts it modulo 2^32. -/
def step (a : TimedLabel) (s : State T) : Option (State T) :=
  match a with
  | .press button shift ax ay time =>
      if ∀ k ∈ s.clicks.head?, k.time ≤ time then
        (s.control.step A
          (.mouseDown button shift ax ay (UInt32.ofNat time) doubleClick)).map fun c =>
            ⟨c, clicksAfter A doubleClick button shift ax ay time s⟩
      else none
  | .other a =>
      if isPress a then none else (s.control.step A a).map fun c => ⟨c, s.clicks⟩

def machine : Lts.Machine (State T) TimedLabel where
  Init s := Control.Init s.control ∧ s.clicks = []
  step := step A doubleClick

end Machine

/-! ## Series -/

/-- A click soon after another and close to it. -/
def Near (prev : Click) (x y : Int) : Prop := |x - prev.x| < 5 ∧ |y - prev.y| < 5

instance (prev : Click) (x y : Int) : Decidable (Near prev x y) :=
  inferInstanceAs (Decidable (_ ∧ _))

/-- The place of the last click in its series. -/
def place (doubleClick : Nat) : List Click → Nat
  | [] => 0
  | [_] => 1
  | k :: prev :: ks =>
      if k.time - prev.time < doubleClick ∧ Near prev k.x k.y then
        place doubleClick (prev :: ks) + 1
      else 1

/-- What the click at some place of a series selects: the first freely or a block, the
second a word, the third a line, and then the same again. -/
def kindAt (n : Nat) (alt : Bool) : UInt8 :=
  if n % 3 = 2 then 2 else if n % 3 = 0 then 3 else if alt then 1 else 0

/-- The last click has selected what its place says. -/
def Right (doubleClick : Nat) (s : State T) : Prop :=
  ∀ k ∈ s.clicks.head?, k.kind = kindAt (place doubleClick s.clicks) k.alt

/-- A pause that is too long for a series, and that the counter takes for a short one. -/
def Wraps (doubleClick pause : Nat) : Prop :=
  doubleClick ≤ pause ∧ (pause % 4294967296 < doubleClick ∨ 2147483648 ≤ pause % 4294967296)

instance (doubleClick pause : Nat) : Decidable (Wraps doubleClick pause) :=
  inferInstanceAs (Decidable (_ ∧ _))

/-- A selection does not start after such a pause, close to a click that was the first or
second of its series. -/
def Timely (A : Alacritty T R) (doubleClick : Nat) : Lts.StepCond (State T) TimedLabel := fun a s =>
  match a with
  | .press button shift ax ay time =>
      s.control.clearSent.selectionCell A button shift ax ay ≠ none → ∀ k ∈ s.clicks.head?,
        place doubleClick s.clicks % 3 ≠ 0 → Near k ax ay → ¬ Wraps doubleClick (time - k.time)
  | .other _ => True

/-! ## Ticks -/

/-- The difference of two counts is small where the time is, modulo 2^32, and also where
it is negative as an `Integer`. -/
theorem tick_lt_iff {now last doubleClick : Nat} (hle : last ≤ now)
    (hsmall : doubleClick < 2147483648) :
    (UInt32.ofNat now - UInt32.ofNat last).toInt32.toInt < doubleClick ↔
      (now - last) % 4294967296 < doubleClick ∨ 2147483648 ≤ (now - last) % 4294967296 := by
  have hsub : UInt32.ofNat now - UInt32.ofNat last = UInt32.ofNat (now - last) :=
    (UInt32.ofNat_sub hle).symm
  have hcond : (UInt32.ofNat (now - last)).toInt32.toInt =
      if 2 * ((now - last) % 4294967296) < 4294967296 then
        (((now - last) % 4294967296 : Nat) : Int)
      else (((now - last) % 4294967296 : Nat) : Int) - 4294967296 :=
    BitVec.toInt_eq_toNat_cond (UInt32.ofNat (now - last)).toBitVec
  rw [hsub, hcond]
  split <;> omega

/-- Close to the last click, the counter is right unless it wraps. -/
theorem tick_iff_of_not_wraps {now last doubleClick : Nat} (hle : last ≤ now)
    (hsmall : doubleClick < 2147483648) (hwraps : ¬ Wraps doubleClick (now - last)) :
    (UInt32.ofNat now - UInt32.ofNat last).toInt32.toInt < doubleClick ↔
      now - last < doubleClick := by
  rw [tick_lt_iff hle hsmall]
  unfold Wraps at hwraps
  omega

theorem tick_lt_of_wraps {now last doubleClick : Nat} (hle : last ≤ now)
    (hsmall : doubleClick < 2147483648) (hwraps : Wraps doubleClick (now - last)) :
    (UInt32.ofNat now - UInt32.ofNat last).toInt32.toInt < doubleClick :=
  (tick_lt_iff hle hsmall).2 hwraps.2

/-! ## The count -/

/-- What the control remembers of the last click. -/
def Remembers (s : State T) : Prop :=
  ∀ k ∈ s.clicks.head?, s.control.lastClickTime = UInt32.ofNat k.time ∧
    s.control.lastClickX = k.x ∧ s.control.lastClickY = k.y

/-- The last clicks have selected what they should, and the count is their place, where a
line starts anew. -/
structure Counts (doubleClick : Nat) (s : State T) : Prop where
  remembers : Remembers s
  count : s.control.consecutiveClicks = place doubleClick s.clicks % 3
  right : Right doubleClick s

/-- A count of clicks that is the place of the last one counts and selects right. -/
theorem kind_of_count {n m : Nat} (hn : n = m % 3 + 1) (alt : Bool) :
    kindOf n alt = kindAt (m + 1) alt ∧ (if n = 3 then 0 else n) = (m + 1) % 3 := by
  have hlt : m % 3 < 3 := Nat.mod_lt m (by decide)
  have hnext : (m + 1) % 3 = (m % 3 + 1) % 3 := by omega
  unfold kindOf kindAt
  rw [hnext]
  interval_cases hm : m % 3 <;> subst hn <;> exact ⟨rfl, rfl⟩

/-- The first click after a full series counts as a first one, however soon it comes. -/
theorem kindAt_full {m : Nat} (hm : m % 3 = 0) (alt : Bool) :
    kindAt (m + 1) alt = kindAt 1 alt := by
  have hnext : (m + 1) % 3 = 1 := by omega
  simp [kindAt, hnext]

theorem kindOf_ne {m : Nat} (hm : m % 3 ≠ 0) (alt : Bool) :
    kindOf (m % 3 + 1) alt ≠ kindAt 1 alt := by
  have hlt : m % 3 < 3 := Nat.mod_lt m (by decide)
  interval_cases hm' : m % 3
  · exact absurd rfl hm
  · cases alt <;> decide
  · cases alt <;> decide

/-- A click in a series that has begun. -/
theorem count_next {doubleClick : Nat} (hsmall : doubleClick < 2147483648) {prev : Click}
    {ks : List Click} {c : Control T} (htime : c.lastClickTime = UInt32.ofNat prev.time)
    (hx : c.lastClickX = prev.x) (hy : c.lastClickY = prev.y)
    (hcount : c.consecutiveClicks = place doubleClick (prev :: ks) % 3) {k : Click}
    (hle : prev.time ≤ k.time) :
    let n := count k.x k.y (UInt32.ofNat k.time) doubleClick c
    let timely := place doubleClick (prev :: ks) % 3 ≠ 0 → Near prev k.x k.y →
      ¬ Wraps doubleClick (k.time - prev.time)
    (timely → kindOf n k.alt = kindAt (place doubleClick (k :: prev :: ks)) k.alt ∧
      (if n = 3 then 0 else n) = place doubleClick (k :: prev :: ks) % 3) ∧
    (kindOf n k.alt = kindAt (place doubleClick (k :: prev :: ks)) k.alt → timely) := by
  have hplace : place doubleClick (k :: prev :: ks) =
      if k.time - prev.time < doubleClick ∧ Near prev k.x k.y then
        place doubleClick (prev :: ks) + 1 else 1 := rfl
  generalize place doubleClick (prev :: ks) = m at hplace hcount ⊢
  intro n timely
  have hagain : again k.x k.y (UInt32.ofNat k.time) doubleClick c ↔
      (UInt32.ofNat k.time - UInt32.ofNat prev.time).toInt32.toInt < doubleClick ∧
        Near prev k.x k.y := by
    rw [again, htime, hx, hy, Near]
  have hn : n = if again k.x k.y (UInt32.ofNat k.time) doubleClick c then m % 3 + 1 else 1 := by
    simp only [n, count, hcount]
  by_cases hfull : m % 3 = 0
  · -- the count is 1, whether the click follows a full series or not
    have hone : n = 1 := by
      rw [hn, hfull]
      split <;> rfl
    have hnext : (m + 1) % 3 = 1 := by omega
    refine ⟨fun _ => ?_, fun _ h => absurd hfull h⟩
    rw [hone, hplace]
    split
    · rw [kindAt_full hfull, hnext]
      exact ⟨rfl, rfl⟩
    · exact ⟨rfl, rfl⟩
  · by_cases hnear : Near prev k.x k.y
    · by_cases hwraps : Wraps doubleClick (k.time - prev.time)
      · have htrue : again k.x k.y (UInt32.ofNat k.time) doubleClick c :=
          hagain.2 ⟨tick_lt_of_wraps hle hsmall hwraps, hnear⟩
        refine ⟨fun h => absurd hwraps (h hfull hnear), fun hkind => ?_⟩
        rw [hn, if_pos htrue, hplace, if_neg fun h => absurd h.1 (Nat.not_lt.2 hwraps.1)] at hkind
        exact absurd hkind (kindOf_ne hfull k.alt)
      · refine ⟨fun _ => ?_, fun _ _ _ => hwraps⟩
        rw [tick_iff_of_not_wraps hle hsmall hwraps] at hagain
        rw [hn, hplace, if_congr hagain rfl rfl]
        split
        · exact kind_of_count rfl k.alt
        · exact ⟨rfl, rfl⟩
    · refine ⟨fun _ => ?_, fun _ _ h => absurd h hnear⟩
      rw [hn, if_neg fun h => hnear (hagain.1 h).2, hplace, if_neg fun h => hnear h.2]
      exact ⟨rfl, rfl⟩

/-! ## Runs -/

/-- No message but a click changes the fields that count clicks. -/
theorem counter_part (A : Alacritty T R) : Part A (counter (T := T)) where
  call op c _ := Control.Aside.call (fun _ _ _ _ => rfl) op
  output chunks c := by
    unfold Control.output
    split <;> rfl
  sendText _ _ := rfl
  sendKey _ _ _ := rfl
  scrolled _ _ _ := rfl
  searching _ _ _ := rfl
  dragging _ _ _ _ _ _ _ := rfl
  flags _ _ _ _ := rfl

theorem counter_aside : Control.Aside (counter (T := T)) := fun _ _ _ _ => rfl

theorem counter_handle (A : Alacritty T R) {a : Label} (ha : isPress a = false) {c c' : Control T}
    (h : c.handle A a = some c') : counter c' = counter c := by
  by_cases hout : a.outward = false
  · exact (counter_part A).handle hout h
  · cases a with
    | mouseDown button shift ax ay now doubleClick => cases ha
    | wmRataRender =>
        cases h
        unfold Control.handleRenderMessage
        split
        · rfl
        · exact (counter_part A).updateScrollInfo
    | wmSize width height | fontChanged cellW cellH =>
        cases h
        exact counter_aside.call _
    | start scrollback =>
        cases h
        unfold Control.start
        split <;> rfl
    | stop => cases h; rfl
    | _ => exact absurd rfl hout

variable {A : Alacritty T R} {doubleClick : Nat}

/-- A click is remembered and counted. -/
theorem startSelection_counter (shift : ShiftState) (ax ay : Int) (col row : Nat) (now : UInt32)
    (c : Control T) :
    counter (c.startSelection A shift ax ay col row now doubleClick) =
      ⟨now, ax, ay, if count ax ay now doubleClick c = 3 then 0
        else count ax ay now doubleClick c⟩ := by
  rw [startSelection_eq]
  exact counter_aside.call _

theorem Counts.of_counter {s : State T} (hs : Counts doubleClick s) {c : Control T}
    (hc : counter c = counter s.control) : Counts doubleClick ⟨c, s.clicks⟩ := by
  simp only [counter, Counter.mk.injEq] at hc
  rcases hc with ⟨htime, hx, hy, hcount⟩
  refine ⟨fun k hk => ?_, hcount.trans hs.count, hs.right⟩
  rcases hs.remembers k hk with ⟨htime', hx', hy'⟩
  exact ⟨htime.trans htime', hx.trans hx', hy.trans hy'⟩

/-- A click after some others, and the click that they leave. -/
theorem counts_click (hsmall : doubleClick < 2147483648) {s : State T}
    (hs : Counts doubleClick s) {k : Click} (hle : ∀ prev ∈ s.clicks.head?, prev.time ≤ k.time) :
    let n := count k.x k.y (UInt32.ofNat k.time) doubleClick s.control
    let timely := ∀ prev ∈ s.clicks.head?, place doubleClick s.clicks % 3 ≠ 0 →
      Near prev k.x k.y → ¬ Wraps doubleClick (k.time - prev.time)
    (timely → kindOf n k.alt = kindAt (place doubleClick (k :: s.clicks)) k.alt ∧
      (if n = 3 then 0 else n) = place doubleClick (k :: s.clicks) % 3) ∧
    (kindOf n k.alt = kindAt (place doubleClick (k :: s.clicks)) k.alt → timely) := by
  rcases s with ⟨c, clicks⟩
  cases clicks with
  | nil =>
      -- the first click of all
      intro n timely
      have hzero : c.consecutiveClicks = 0 := hs.count
      have hone : n = 1 := by
        simp only [n, count, hzero]
        split <;> rfl
      refine ⟨fun _ => ?_, fun _ => by rintro prev ⟨⟩⟩
      rw [hone]
      exact ⟨rfl, rfl⟩
  | cons prev ks =>
      rcases hs.remembers prev rfl with ⟨htime, hx, hy⟩
      have hnext := count_next hsmall htime hx hy hs.count (hle prev rfl)
      simpa using hnext

/-- One press: it counts right exactly when it is timely. -/
theorem press_counts (hsmall : doubleClick < 2147483648) {button : MouseButton}
    {shift : ShiftState} {ax ay : Int} {time : Nat} {s s' : State T}
    (hstep : step A doubleClick (.press button shift ax ay time) s = some s')
    (hs : Counts doubleClick s) :
    (Timely A doubleClick (.press button shift ax ay time) s → Counts doubleClick s') ∧
      (Right doubleClick s' → Timely A doubleClick (.press button shift ax ay time) s) := by
  simp only [step, Option.ite_none_right_eq_some, Control.step, Control.handle, Option.map_some,
    Option.some.injEq] at hstep
  rcases hstep with ⟨htime, rfl⟩
  cases hcell : s.control.clearSent.selectionCell A button shift ax ay with
  | none =>
      have hcounter := (counter_part A).rule.mouseDown hcell (UInt32.ofNat time) doubleClick
      simp only [clicksAfter, hcell]
      refine ⟨fun _ => hs.of_counter hcounter, fun _ hne => ?_⟩
      exact absurd hcell hne
  | some cell =>
      rcases cell with ⟨col, row⟩
      have hclick := counts_click hsmall hs
        (k := ⟨ax, ay, time, shift.ssAlt,
          kind shift ax ay (UInt32.ofNat time) doubleClick s.control⟩) htime
      simp only at hclick
      have hcounter : counter (s.control.clearSent.startSelection A shift ax ay col row
          (UInt32.ofNat time) doubleClick) = _ := startSelection_counter shift ax ay col row _ _
      simp only [counter, Counter.mk.injEq] at hcounter
      rcases hcounter with ⟨hticks, hx, hy, hcount⟩
      simp only [clicksAfter, hcell]
      rw [Control.mouseDown_selection hcell]
      refine ⟨fun htimely => ⟨?_, ?_, ?_⟩, fun hright _ => hclick.2 (hright _ rfl)⟩
      · rintro k ⟨⟩
        exact ⟨hticks, hx, hy⟩
      · exact hcount.trans (hclick.1 (htimely (by simp [hcell]))).2
      · rintro k ⟨⟩
        exact (hclick.1 (htimely (by simp [hcell]))).1

theorem other_counts {a : Label} {s s' : State T}
    (hstep : step A doubleClick (.other a) s = some s') (hs : Counts doubleClick s) :
    Counts doubleClick s' := by
  simp only [step, Option.ite_none_left_eq_some, Option.map_eq_some_iff] at hstep
  rcases hstep with ⟨hpress, c, hc, rfl⟩
  have hcounter := counter_handle A (Bool.eq_false_iff.2 hpress) (c := s.control.clearSent) hc
  exact hs.of_counter hcounter

/-- In a run of presses and all other messages, each selection is of the kind that the
place of its click says, in its series of clicks that follow each other within the double
click time and 5 pixels, exactly when no click follows a first or second one of a series
closely after a pause that is too long but not so modulo 2^32 milliseconds, or that is there
at least 2^31. -/
theorem kinds_right_iff (hsmall : doubleClick < 2147483648) {s : State T}
    (hs : (machine A doubleClick).Init s) (as : List TimedLabel) :
    (machine A doubleClick).Along (Right doubleClick) s as ↔
      (machine A doubleClick).Meets (Timely A doubleClick) s as := by
  have hinit : Counts doubleClick s := by
    rcases s with ⟨c, clicks⟩
    rcases hs with ⟨⟨cellW, cellH, width, height, rfl⟩, rfl⟩
    exact ⟨by rintro k ⟨⟩, rfl, by rintro k ⟨⟩⟩
  refine Lts.Machine.along_iff_meets_of (J := Counts doubleClick) (fun _ h => h.right) ?_ ?_ as
    hinit
  · intro a s s' hstep hs htimely
    cases a with
    | press button shift ax ay time => exact (press_counts hsmall hstep hs).1 htimely
    | other a => exact other_counts hstep hs
  · intro a s s' hstep hs hright
    cases a with
    | press button shift ax ay time => exact (press_counts hsmall hstep hs).2 hright
    | other a => trivial

/-- A control of two cells by two. -/
def opened : State Plain := ⟨Control.create 8 16 28 32, []⟩

/-- Two clicks with a pause of 2^31 milliseconds. -/
def longPause : List TimedLabel :=
  [.press .mbLeft noKeys 4 8 0, .press .mbLeft noKeys 4 8 2147483648]

/-- The second one selects a word. -/
theorem kinds_right_iff_longPause :
    ((machine plain 500).run opened longPause).map (fun s => s.clicks.map Click.kind) =
        some [2, 0] ∧
      ((machine plain 500).Along (Right 500) opened longPause ↔
        (machine plain 500).Meets (Timely plain 500) opened longPause) :=
  ⟨by decide +kernel, kinds_right_iff (by decide) ⟨⟨8, 16, 28, 32, rfl⟩, rfl⟩ longPause⟩

end RataShell.Input.Clicks
