import RataShell.Control.Lifecycle

/-!
# Exit messages and later sessions

`RataExitProc` posts `WM_RATA_EXIT` to the window. The message holds the exit code
and not the session, and `Stop` leaves it in the queue: `WMRataExit` may take it
when `FSession` is already another session.

* `Sound`: each `OnExit` is that of `FSession`, and `FActive` tells whether its
  exit is still to be reported.
* `sound_iff`: a run keeps that exactly when no message is taken during a later
  session.
* `restart_inactive`: `Restart` right after an exit.
-/

namespace RataShell.Control

/-- A call of `OnExit`, right after `FExitCode` was set: `FSession` at that time, and
the session that posted the message. -/
structure Report where
  session : Option Nat
  origin : Nat
  exitCode : Int32
deriving DecidableEq, Repr

/-- The control with its window: `HandleAllocated`, the sessions that posted the
messages, and the calls of `OnExit`. -/
structure Window where
  control : State
  allocated : Bool
  origins : List Nat
  reports : List Report
deriving DecidableEq, Repr

/-- A step of the control, or one of its window alone. -/
inductive WindowLabel where
  | control (a : Label)
  | handleNeeded
  | destroyWindowHandle
deriving DecidableEq, Repr

/-- `Start` passes its guard and the library is there: it calls `HandleNeeded`. -/
def needsHandle (a : Label) (s : State) : Bool :=
  match a with
  | .start o | .setActive true o => !s.active && decide (o ≠ .notLoaded)
  | .restart o => decide (o ≠ .notLoaded)
  | _ => false

namespace Window

/-- `RataExitProc`: the message is posted where there is a window. -/
def childExit (handle : Nat) (code : Int32) (w : Window) : Option Window :=
  (Control.childExit handle code w.control).map fun s =>
    if w.allocated then { w with control := s, origins := w.origins ++ [handle] }
    else { w with control := { s with messages := w.control.messages } }

/-- `WMRataExit`. -/
def wmRataExit (w : Window) : Option Window :=
  match w.origins with
  | [] => none
  | origin :: origins =>
      (Control.wmRataExit w.control).map fun s =>
        { w with
          control := s
          origins := origins
          reports := w.reports ++ [⟨s.session, origin, s.exitCode⟩] }

/-- `DestroyWindowHandle`; the messages of the window are lost with it. -/
def destroyWindowHandle (w : Window) : Window :=
  { w with control := { stop w.control with messages := [] }, allocated := false, origins := [] }

/-- One step; there is none after `Destroy`. -/
def step (a : WindowLabel) (w : Window) : Option Window :=
  if w.control.destroyed then none
  else
    match a with
    | .handleNeeded => some { w with allocated := true }
    | .destroyWindowHandle => some w.destroyWindowHandle
    | .control (.childExit handle code) => w.childExit handle code
    | .control .wmRataExit => w.wmRataExit
    | .control a =>
        (Control.step a w.control).map fun s =>
          { w with control := s, allocated := w.allocated || needsHandle a w.control }

def created : Window := ⟨Control.created, false, [], []⟩

def machine : Lts.Machine Window WindowLabel where
  Init w := w = created
  step := step

/-! ## Moves of the session -/

/-- The session has been created, and its child does not run any more. -/
def Exited (handle : Nat) (s : State) : Prop :=
  handle < s.nextHandle ∧ ⟨handle, true⟩ ∉ s.natives

/-- What a step of the control makes of `FSession` and `FActive`. -/
inductive Shift (s s' : State) : Prop where
  | kept (hsession : s'.session = s.session) (hactive : s'.active = s.active)
  | stopped (hsession : s'.session = none) (hactive : s'.active = false)
  | started (handle : Nat) (hfresh : s.nextHandle ≤ handle) (hsession : s'.session = some handle)
      (hactive : s'.active = true)

/-- A step that takes and posts no message shifts the session, runs no child again
and leaves the messages. -/
structure Move (s s' : State) : Prop where
  shift : Shift s s'
  exited : ∀ k, Exited k s → Exited k s'
  messages : s'.messages = s.messages

theorem move_refl (s : State) : Move s s := ⟨.kept rfl rfl, fun _ hk => hk, rfl⟩

theorem exited_create {k : Nat} {s : State} (hk : Exited k s) : Exited k (create s) := by
  rcases hk with ⟨hlt, hnot⟩
  refine ⟨Nat.lt_succ_of_lt hlt, ?_⟩
  simp only [create, List.mem_append, List.mem_singleton, Native.mk.injEq, and_true, not_or]
  exact ⟨hnot, Nat.ne_of_lt hlt⟩

theorem exited_destroySession {k : Nat} {s : State} (hk : Exited k s) :
    Exited k (destroySession s) :=
  ⟨hk.1, fun hmem => hk.2 (List.mem_of_mem_filter hmem)⟩

theorem start_move (o : Outcome) (s : State) : Move s (start o s) := by
  unfold start
  split
  · exact move_refl s
  · cases o with
    | notLoaded | createFails => exact move_refl s
    | startFails =>
        -- the session that has been created is destroyed again
        rename_i hactive
        have hinactive : s.active = false := by simpa using hactive
        exact ⟨.stopped rfl hinactive, fun k hk => exited_destroySession (exited_create hk), rfl⟩
    | started =>
        exact ⟨.started s.nextHandle le_rfl rfl rfl, fun k hk => exited_create hk, rfl⟩

theorem stop_move (s : State) : Move s (stop s) ∧ (stop s).session = none ∧
    (stop s).active = false := by
  unfold stop
  split
  · rename_i hnone
    exact ⟨⟨.stopped hnone rfl, fun k hk => hk, rfl⟩, hnone, rfl⟩
  · exact ⟨⟨.stopped rfl rfl, fun k hk => exited_destroySession hk, rfl⟩, rfl, rfl⟩

theorem restart_move (o : Outcome) (s : State) : Move s (restart o s) := by
  rcases stop_move s with ⟨hstop, hsession, hactive⟩
  have hstart := start_move o (stop s)
  have hnext : s.nextHandle ≤ (stop s).nextHandle := by
    unfold stop
    split <;> exact le_rfl
  refine ⟨?_, fun k hk => hstart.exited k (hstop.exited k hk), hstart.messages.trans hstop.messages⟩
  cases hstart.shift with
  | kept hs ha => exact .stopped (hs.trans hsession) (ha.trans hactive)
  | stopped hs ha => exact .stopped hs ha
  | started handle hfresh hs ha => exact .started handle (hnext.trans hfresh) hs ha

/-- Every other step is such a move. -/
theorem step_move {a : Label} {s s' : State} (h : Control.step a s = some s')
    (hexit : ∀ handle code, a ≠ .childExit handle code) (htake : a ≠ .wmRataExit) : Move s s' := by
  -- a destroyed control takes no step
  unfold Control.step at h
  split at h
  · cases h
  · cases a with
    | start o =>
        cases h
        exact start_move o s
    | stop =>
        cases h
        exact (stop_move s).1
    | restart o =>
        cases h
        exact restart_move o s
    | setActive value o =>
        cases h
        unfold setActive
        split
        · exact move_refl s
        · split
          · exact start_move o s
          · exact (stop_move s).1
    | destroy =>
        have hstop := stop_move s
        cases h
        exact ⟨.stopped hstop.2.1 hstop.2.2, hstop.1.exited, hstop.1.messages⟩
    | childExit handle code => exact absurd rfl (hexit handle code)
    | wmRataExit => exact absurd rfl htake

/-! ## What each message tells -/

/-- Each message in the queue and each report is that of a session that has ended. -/
structure Known (w : Window) : Prop where
  valid : Valid w.control
  aligned : w.origins.length = w.control.messages.length
  origins : ∀ k ∈ w.origins, Exited k w.control
  reports : ∀ r ∈ w.reports, Exited r.origin w.control

/-- Each call of `OnExit` during a session is that of the session, `FActive` is true
exactly while `FSession` is a session whose exit has not been reported, and so while
its child runs. -/
structure Sound (w : Window) : Prop where
  reports : ∀ r ∈ w.reports, ∀ h, r.session = some h → r.origin = h
  active : w.control.active = true ↔
    ∃ h, w.control.session = some h ∧ ∀ r ∈ w.reports, r.origin ≠ h
  running : ∀ h, w.control.session = some h → ⟨h, true⟩ ∈ w.control.natives →
    w.control.active = true

/-- No message is taken from the queue during another session than its own. -/
def OwnExit : Lts.StepCond Window WindowLabel := fun a w =>
  a = .control .wmRataExit → ∀ h ∈ w.control.session, w.origins.head? = some h

instance (a : WindowLabel) (w : Window) : Decidable (OwnExit a w) :=
  inferInstanceAs (Decidable (a = .control .wmRataExit →
    ∀ h ∈ w.control.session, w.origins.head? = some h))

/-- A child that has ended is known to have. -/
theorem exited_childExit {handle : Nat} {code : Int32} {s s' : State} (hs : Valid s)
    (h : Control.childExit handle code s = some s') :
    Exited handle s' ∧ ∀ k, Exited k s → Exited k s' := by
  unfold Control.childExit at h
  split at h
  · rename_i hmem
    cases h
    refine ⟨⟨hs.fresh _ hmem, ?_⟩, fun k hk => ⟨hk.1, ?_⟩⟩
    · intro hrun
      rcases List.mem_map.1 hrun with ⟨n, -, hn⟩
      split at hn
      · cases hn
      · rename_i hne
        exact hne (congrArg Native.handle hn)
    · intro hrun
      rcases List.mem_map.1 hrun with ⟨n, hn, hnk⟩
      split at hnk
      · cases hnk
      · exact hk.2 (hnk ▸ hn)
  · cases h

theorem known_move {w : Window} {s : State} (allocated : Bool) (hw : Known w)
    (hmove : Move w.control s) (hs : Valid s) :
    Known { w with control := s, allocated := allocated } where
  valid := hs
  aligned := hw.aligned.trans (congrArg List.length hmove.messages.symm)
  origins k hk := hmove.exited k (hw.origins k hk)
  reports r hr := hmove.exited _ (hw.reports r hr)

theorem childExit_known {handle : Nat} {code : Int32} {w w' : Window}
    (h : w.childExit handle code = some w') (hw : Known w) : Known w' := by
  rcases Option.map_eq_some_iff.1 h with ⟨s, hs, rfl⟩
  have hvalid := childExit_valid hs hw.valid
  rcases exited_childExit hw.valid hs with ⟨hexited, hkeep⟩
  have hmessages : s.messages = w.control.messages ++ [code] := by
    unfold Control.childExit at hs
    split at hs
    · cases hs
      rfl
    · cases hs
  have horigins : ∀ k ∈ w.origins, Exited k s := fun k hk => hkeep k (hw.origins k hk)
  have hreports : ∀ r ∈ w.reports, Exited r.origin s := fun r hr => hkeep _ (hw.reports r hr)
  split
  · -- a window with a handle: the message goes behind those in the queue
    refine ⟨hvalid, ?_, ?_, hreports⟩
    · simp [hmessages, hw.aligned]
    · intro k hk
      rcases List.mem_append.1 hk with hk | hk
      · exact horigins k hk
      · rw [List.mem_singleton.1 hk]
        exact hexited
  · exact ⟨⟨hvalid.session, hvalid.fresh⟩, hw.aligned, horigins, hreports⟩

/-- What `WMRataExit` does. -/
theorem wmRataExit_cases {w w' : Window} (h : w.wmRataExit = some w') :
    ∃ origin origins code messages, w.origins = origin :: origins ∧
      w.control.messages = code :: messages ∧
      w' = { w with
        control := { w.control with active := false, exitCode := code, messages := messages }
        origins := origins
        reports := w.reports ++ [⟨w.control.session, origin, code⟩] } := by
  unfold wmRataExit at h
  split at h
  · cases h
  · rename_i origin origins horigins
    rcases Option.map_eq_some_iff.1 h with ⟨s, hs, rfl⟩
    unfold Control.wmRataExit at hs
    split at hs
    · cases hs
    · rename_i code messages hmessages
      cases hs
      exact ⟨origin, origins, code, messages, horigins, hmessages, rfl⟩

/-- A message in the queue can be taken. -/
theorem wmRataExit_isSome {w : Window} (hw : Known w) (hmessages : w.control.messages ≠ []) :
    w.wmRataExit.isSome = true := by
  cases horigins : w.origins with
  | nil =>
      have haligned := hw.aligned
      rw [horigins, List.length_nil] at haligned
      exact absurd (List.eq_nil_of_length_eq_zero haligned.symm) hmessages
  | cons origin origins =>
      cases hqueue : w.control.messages with
      | nil => exact absurd hqueue hmessages
      | cons code messages => simp [wmRataExit, Control.wmRataExit, horigins, hqueue]

theorem wmRataExit_known {w w' : Window} (h : w.wmRataExit = some w') (hw : Known w) :
    Known w' := by
  rcases wmRataExit_cases h with ⟨origin, origins, code, messages, horigins, hmessages, rfl⟩
  have haligned := hw.aligned
  rw [horigins, hmessages] at haligned
  have hexited : ∀ k ∈ origin :: origins, Exited k w.control := horigins ▸ hw.origins
  refine ⟨⟨hw.valid.session, hw.valid.fresh⟩, Nat.succ.inj haligned, ?_, ?_⟩
  · intro k hk
    exact hexited k (List.mem_cons_of_mem _ hk)
  · intro r hr
    rcases List.mem_append.1 hr with hr | hr
    · exact hw.reports r hr
    · rw [List.mem_singleton.1 hr]
      exact hexited origin List.mem_cons_self

/-! ## Steps -/

/-- A step takes a message, posts one, or is a move. -/
theorem step_cases {a : WindowLabel} {w w' : Window} (h : w.step a = some w') :
    (∃ handle code, a = .control (.childExit handle code) ∧ w.childExit handle code = some w') ∨
      (a = .control .wmRataExit ∧ w.wmRataExit = some w') ∨
      (a ≠ .control .wmRataExit ∧ w' = w.destroyWindowHandle) ∨
      (a ≠ .control .wmRataExit ∧ ∃ s allocated, Move w.control s ∧ (Valid w.control → Valid s) ∧
        w' = { w with control := s, allocated := allocated }) := by
  unfold step at h
  split at h
  · cases h
  · cases a with
    | handleNeeded =>
        cases h
        exact .inr (.inr (.inr ⟨by simp, w.control, true, move_refl _, id, rfl⟩))
    | destroyWindowHandle =>
        cases h
        exact .inr (.inr (.inl ⟨by simp, rfl⟩))
    | control a =>
        cases a with
        | childExit handle code => exact .inl ⟨handle, code, rfl, h⟩
        | wmRataExit => exact .inr (.inl ⟨rfl, h⟩)
        | start | stop | restart | setActive | destroy =>
            rcases Option.map_eq_some_iff.1 h with ⟨s, hs, rfl⟩
            have hmove := step_move hs (by simp) (by simp)
            exact .inr (.inr (.inr ⟨by simp, s, _, hmove, step_valid hs, rfl⟩))

theorem step_known {a : WindowLabel} {w w' : Window} (h : w.step a = some w') (hw : Known w) :
    Known w' := by
  rcases step_cases h with
    ⟨handle, code, -, h⟩ | ⟨-, h⟩ | ⟨-, rfl⟩ | ⟨-, s, allocated, hmove, hs, rfl⟩
  · exact childExit_known h hw
  · exact wmRataExit_known h hw
  · -- the queue goes with the window
    have hvalid := stop_valid hw.valid
    have hkeep := (stop_move w.control).1.exited
    refine ⟨⟨hvalid.session, hvalid.fresh⟩, rfl, by simp [destroyWindowHandle], ?_⟩
    exact fun r hr => hkeep _ (hw.reports r hr)
  · exact known_move allocated hw hmove (hs hw.valid)

/-- The session is shifted without a report. -/
theorem sound_shift {w w' : Window} (hw : Known w) (hsound : Sound w)
    (hshift : Shift w.control w'.control) (hreports : w'.reports = w.reports)
    (hnatives : ∀ k, Exited k w.control → Exited k w'.control) : Sound w' := by
  have hactive : w'.control.active = true ↔
      ∃ h, w'.control.session = some h ∧ ∀ r ∈ w'.reports, r.origin ≠ h := by
    rw [hreports]
    cases hshift with
    | kept hs ha =>
        rw [hs, ha]
        exact hsound.active
    | stopped hs ha => simp [hs, ha]
    | started handle hfresh hs ha =>
        -- a new session is none of those that have ended
        refine iff_of_true ha ⟨handle, hs, fun r hr heq => ?_⟩
        have hlt := (hw.reports r hr).1
        omega
  refine ⟨?_, hactive, ?_⟩
  · rw [hreports]
    exact hsound.reports
  · intro h hs hrun
    refine hactive.2 ⟨h, hs, fun r hr heq => ?_⟩
    have hexited := hnatives _ (hw.reports r (hreports ▸ hr))
    exact hexited.2 (heq ▸ hrun)

/-- A message tells of the session it finds exactly when it is its own. -/
theorem wmRataExit_sound_iff {w w' : Window} (h : w.wmRataExit = some w') (hw : Known w)
    (hsound : Sound w) :
    Sound w' ↔ ∀ h ∈ w.control.session, w.origins.head? = some h := by
  rcases wmRataExit_cases h with ⟨origin, origins, code, messages, horigins, -, rfl⟩
  simp only [horigins, List.head?_cons, Option.some.injEq, Option.mem_def]
  constructor
  · intro hsound' h hs
    exact hsound'.reports ⟨w.control.session, origin, code⟩ (by simp) h hs
  · intro hown
    refine ⟨?_, ?_, ?_⟩
    · intro r hr h hs
      rcases List.mem_append.1 hr with hr | hr
      · exact hsound.reports r hr h hs
      · rw [List.mem_singleton.1 hr] at hs ⊢
        exact hown h hs
    · -- the session has now been reported
      refine iff_of_false (by simp) ?_
      rintro ⟨h, hs, hall⟩
      exact hall ⟨w.control.session, origin, code⟩ (by simp) (hown h hs)
    · -- and its child has ended
      intro h hs hrun
      have hexited := hw.origins origin (by simp [horigins])
      exact absurd (hown h hs ▸ hrun) hexited.2

theorem step_sound_iff {a : WindowLabel} {w w' : Window} (hstep : w.step a = some w') (hw : Known w)
    (hsound : Sound w) : Sound w' ↔ OwnExit a w := by
  rcases step_cases hstep with
    ⟨handle, code, rfl, h⟩ | ⟨rfl, h⟩ | ⟨ha, rfl⟩ | ⟨ha, s, allocated, hmove, -, rfl⟩
  · -- the end of a child posts its message and shifts nothing
    refine iff_of_true ?_ (fun hne => by cases hne)
    rcases Option.map_eq_some_iff.1 h with ⟨s, hs, rfl⟩
    have hkeep := (exited_childExit hw.valid hs).2
    unfold Control.childExit at hs
    split at hs
    · cases hs
      split <;> exact sound_shift hw hsound (.kept rfl rfl) rfl hkeep
    · cases hs
  · rw [wmRataExit_sound_iff h hw hsound]
    simp [OwnExit]
  · have hstop := stop_move w.control
    exact iff_of_true (sound_shift hw hsound (.stopped hstop.2.1 hstop.2.2) rfl hstop.1.exited)
      fun heq => absurd heq ha
  · exact iff_of_true (sound_shift hw hsound hmove.shift rfl hmove.exited) fun heq => absurd heq ha

/-! ## Whole runs -/

/-- In a run, every report is that of the session it comes to and `FActive` tells of
it, exactly when no message is taken during another session than its own. -/
theorem sound_iff (as : List WindowLabel) :
    machine.Along Sound created as ↔ machine.Meets OwnExit created as := by
  refine Lts.Machine.along_iff_meets (I := Known) ?_ ?_ as ?_ ?_
  · exact fun a w w' hstep hw => step_known hstep hw
  · exact fun a w w' hstep hw hsound => step_sound_iff hstep hw hsound
  · constructor <;> simp [created, Control.created]
    constructor <;> simp
  · constructor <;> simp [created, Control.created]

/-- The child ends, and the host restarts before it learns of it. -/
def restarted : List WindowLabel :=
  [.control (.start .started), .control (.childExit 0 7), .control (.restart .started),
   .control .wmRataExit]

/-- The new child runs and has not been reported, no message is left, and `FActive`
is false. -/
theorem restart_inactive :
    ∃ w, machine.Reachable (fun _ _ => True) w ∧ w.control.messages = [] ∧
      w.control.session = some 1 ∧ ⟨1, true⟩ ∈ w.control.natives ∧
      (∀ r ∈ w.reports, r.origin ≠ 1) ∧ w.control.active = false ∧
      w.reports = [⟨some 1, 0, 7⟩] := by
  have hinit : machine.Init created := rfl
  have hmeets : machine.Meets (fun _ _ => True) created restarted := by
    decide +kernel
  have htest : (machine.run created restarted).any (fun w =>
      decide (w.control.messages = [] ∧ w.control.session = some 1 ∧
        ⟨1, true⟩ ∈ w.control.natives ∧ (∀ r ∈ w.reports, r.origin ≠ 1) ∧
        w.control.active = false ∧ w.reports = [⟨some 1, 0, 7⟩])) = true := by
    decide +kernel
  rcases Lts.Machine.exists_reachable _ _ hinit hmeets htest with ⟨w, -, hw, h⟩
  exact ⟨w, hw, of_decide_eq_true h⟩

end Window

end RataShell.Control
