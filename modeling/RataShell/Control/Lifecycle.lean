import Mathlib.Data.List.Basic
import RataShell.Lib.Machine

/-!
# The native sessions of the control

`TSCRataShell` owns a native session through `FSession`, while `Start` is
guarded by `FActive`. The two come apart when the child exits by itself:
`WMRataExit` lowers `FActive` and leaves `FSession`.

* `Owned`: the natives that exist are the one `FSession` points to, and none
  after `Destroy`.
* `owned_iff`: a run keeps that exactly when every `Start` that creates a
  native finds `FSession` nil.
* `restarted_leaks`: `Start` after an exit leaks the old native.
-/

namespace RataShell.Control

/-! ## The control -/

/-- A native session, created and not destroyed, and whether its child runs. -/
structure Native where
  handle : Nat
  running : Bool
deriving DecidableEq, Repr

/-- `FSession`, `FActive` and `FExitCode`, the natives and the next handle, the
posted `WM_RATA_EXIT` messages with their `LParam`, and whether `Destroy` ran. -/
structure State where
  session : Option Nat
  active : Bool
  exitCode : Int32
  natives : List Native
  nextHandle : Nat
  messages : List Int32
  destroyed : Bool
deriving DecidableEq, Repr

/-- What `Start` meets: no library, an error of `rata_session_create` or of
`rata_session_start`, or neither. -/
inductive Outcome where
  | notLoaded
  | createFails
  | startFails
  | started
deriving DecidableEq, Repr

/-- `rata_session_create` succeeds. -/
def Outcome.creates : Outcome → Bool
  | .notLoaded | .createFails => false
  | .startFails | .started => true

/-- `rata_session_create` into `FSession`. -/
def create (s : State) : State :=
  { s with
    session := some s.nextHandle
    natives := s.natives ++ [⟨s.nextHandle, true⟩]
    nextHandle := s.nextHandle + 1 }

/-- `rata_session_destroy(FSession)` and `FSession := nil`. -/
def destroySession (s : State) : State :=
  { s with
    session := none
    natives := s.natives.filter fun n => some n.handle ≠ s.session }

/-- `Start`; the errors raise an exception. -/
def start (o : Outcome) (s : State) : State :=
  if s.active then s
  else
    match o with
    | .notLoaded | .createFails => s
    | .startFails => destroySession (create s)
    | .started => { create s with active := true }

/-- `Stop`. -/
def stop (s : State) : State :=
  match s.session with
  | none => { s with active := false }
  | some _ => { destroySession s with active := false }

/-- `Restart`. -/
def restart (o : Outcome) (s : State) : State := start o (stop s)

/-- `SetActive`. -/
def setActive (value : Bool) (o : Outcome) (s : State) : State :=
  if value = s.active then s else if value then start o s else stop s

/-- `Destroy`, as far as the natives go. -/
def destroy (s : State) : State := { stop s with destroyed := true }

/-- The child of a native ends; `RataExitProc` posts the message. -/
def childExit (handle : Nat) (code : Int32) (s : State) : Option State :=
  if ⟨handle, true⟩ ∈ s.natives then
    some { s with
      natives := s.natives.map fun n => if n.handle = handle then { n with running := false } else n
      messages := s.messages ++ [code] }
  else none

/-- `WMRataExit` for the next message. -/
def wmRataExit (s : State) : Option State :=
  match s.messages with
  | [] => none
  | code :: messages => some { s with active := false, exitCode := code, messages := messages }

/-- The steps of the control, its host and its natives. -/
inductive Label where
  | start (o : Outcome)
  | stop
  | restart (o : Outcome)
  | setActive (value : Bool) (o : Outcome)
  | destroy
  | childExit (handle : Nat) (code : Int32)
  | wmRataExit
deriving DecidableEq, Repr

/-- One step; there is none after `Destroy`. -/
def step (a : Label) (s : State) : Option State :=
  if s.destroyed then none
  else
    match a with
    | .start o => some (start o s)
    | .stop => some (stop s)
    | .restart o => some (restart o s)
    | .setActive value o => some (setActive value o s)
    | .destroy => some (destroy s)
    | .childExit handle code => childExit handle code s
    | .wmRataExit => wmRataExit s

/-- A control after `Create`. -/
def created : State where
  session := none
  active := false
  exitCode := 0
  natives := []
  nextHandle := 0
  messages := []
  destroyed := false

/-- The runs of a control from its creation. -/
def machine : Lts.Machine State Label where
  Init s := s = created
  step := step

/-! ## Ownership -/

/-- The natives that exist are the one `FSession` points to, so at most one,
and none after `Destroy`. -/
structure Owned (s : State) : Prop where
  session : ∀ n ∈ s.natives, s.session = some n.handle
  unique : s.natives.length ≤ 1
  destroyed : s.destroyed = true → s.natives = []

/-- A `Start` that passes its guard and creates a native finds `FSession` nil. -/
def StartsUnowned : Lts.StepCond State Label := fun a s =>
  match a with
  | .start o | .setActive true o => s.active = false → o.creates = true → s.session = none
  | _ => True

/-- `FSession` points to a native that exists, and handles are fresh. -/
structure Valid (s : State) : Prop where
  session : ∀ h, s.session = some h → ∃ n ∈ s.natives, n.handle = h
  fresh : ∀ n ∈ s.natives, n.handle < s.nextHandle

theorem create_valid {s : State} (hs : Valid s) : Valid (create s) := by
  constructor
  · intro h hh
    cases hh
    exact ⟨⟨s.nextHandle, true⟩, by simp [create], rfl⟩
  · intro n hn
    simp only [create, List.mem_append, List.mem_singleton] at hn ⊢
    rcases hn with hn | rfl
    · have hlt := hs.fresh n hn
      omega
    · exact Nat.lt_succ_self _

theorem destroySession_valid {s : State} (hs : Valid s) : Valid (destroySession s) := by
  constructor
  · intro h hh
    cases hh
  · intro n hn
    exact hs.fresh n (List.mem_of_mem_filter hn)

theorem start_valid {s : State} (hs : Valid s) (o : Outcome) : Valid (start o s) := by
  have hcreate := create_valid hs
  unfold start
  split
  · exact hs
  · cases o with
    | notLoaded | createFails => exact hs
    | startFails => exact destroySession_valid hcreate
    | started => exact ⟨hcreate.session, hcreate.fresh⟩

theorem stop_valid {s : State} (hs : Valid s) : Valid (stop s) := by
  have hdestroy := destroySession_valid hs
  unfold stop
  split
  · exact ⟨hs.session, hs.fresh⟩
  · exact ⟨hdestroy.session, hdestroy.fresh⟩

theorem childExit_valid {s s' : State} {handle : Nat} {code : Int32}
    (h : childExit handle code s = some s') (hs : Valid s) : Valid s' := by
  unfold childExit at h
  split at h
  · cases h
    constructor
    · intro k hk
      rcases hs.session k hk with ⟨n, hn, hnk⟩
      refine ⟨_, List.mem_map.2 ⟨n, hn, rfl⟩, ?_⟩
      split <;> exact hnk
    · intro m hm
      rcases List.mem_map.1 hm with ⟨n, hn, rfl⟩
      have hlt := hs.fresh n hn
      split <;> exact hlt
  · cases h

theorem step_valid {a : Label} {s s' : State} (h : step a s = some s') (hs : Valid s) :
    Valid s' := by
  unfold step at h
  split at h
  · cases h
  · cases a with
    | start o =>
        cases h
        exact start_valid hs o
    | stop =>
        cases h
        exact stop_valid hs
    | destroy =>
        have hstop := stop_valid hs
        cases h
        exact ⟨hstop.session, hstop.fresh⟩
    | restart o =>
        cases h
        exact start_valid (stop_valid hs) o
    -- the property starts or stops, and does nothing where it has its value
    | setActive value o =>
        cases h
        unfold setActive
        split
        · exact hs
        · split
          · exact start_valid hs o
          · exact stop_valid hs
    | childExit handle code => exact childExit_valid h hs
    | wmRataExit =>
        simp only [wmRataExit] at h
        split at h
        · cases h
        · cases h
          exact ⟨hs.session, hs.fresh⟩

/-! ## What each operation does to it -/

/-- An owned session that is not there leaves no native. -/
theorem Owned.natives_eq_nil {s : State} (hs : Owned s) (hnone : s.session = none) :
    s.natives = [] := by
  rw [List.eq_nil_iff_forall_not_mem]
  intro n hn
  have hsome := hs.session n hn
  rw [hnone] at hsome
  cases hsome

/-- `Stop` leaves no native. -/
theorem stop_natives {s : State} (hs : Owned s) :
    (stop s).session = none ∧ (stop s).natives = [] := by
  unfold stop
  split
  · rename_i hnone
    exact ⟨hnone, hs.natives_eq_nil hnone⟩
  · refine ⟨rfl, ?_⟩
    simp only [destroySession, List.filter_eq_nil_iff]
    intro n hn
    simp [hs.session n hn]

theorem stop_owned {s : State} (hs : Owned s) : Owned (stop s) := by
  have hnil := (stop_natives hs).2
  constructor <;> simp [hnil]

/-- `Start` keeps the ownership exactly when it creates no native over another
one. -/
theorem start_owned_iff {s : State} (hv : Valid s) (hs : Owned s) (halive : s.destroyed = false)
    (o : Outcome) :
    Owned (start o s) ↔ (s.active = false → o.creates = true → s.session = none) := by
  unfold start
  split
  · rename_i hactive
    simp [hactive, hs]
  · rename_i hactive
    have hinactive : s.active = false := by simpa using hactive
    cases o with
    | notLoaded | createFails => simp [Outcome.creates, hs]
    | startFails =>
        constructor
        · intro howned _ _
          -- the native of `FSession` survives, and `FSession` is nil
          by_contra hsome
          rcases Option.ne_none_iff_exists'.1 hsome with ⟨h, hh⟩
          rcases hv.session h hh with ⟨n, hn, hnh⟩
          have hlt := hv.fresh n hn
          have hmem : n ∈ (destroySession (create s)).natives := by
            simp only [destroySession, create, List.mem_filter, List.mem_append]
            refine ⟨.inl hn, ?_⟩
            simp only [ne_eq, Option.some.injEq, decide_not, Bool.not_eq_true',
              decide_eq_false_iff_not]
            omega
          have hbad := howned.session n hmem
          cases hbad
        · intro hnone
          have hnil := hs.natives_eq_nil (hnone hinactive rfl)
          constructor <;> simp [destroySession, create, hnil]
    | started =>
        constructor
        · intro howned _ _
          by_contra hsome
          rcases Option.ne_none_iff_exists'.1 hsome with ⟨h, hh⟩
          rcases hv.session h hh with ⟨n, hn, -⟩
          -- now there are two
          have hpos : 0 < s.natives.length := List.length_pos_of_mem hn
          have hunique := howned.unique
          simp only [create, List.length_append, List.length_singleton] at hunique
          omega
        · intro hnone
          have hnil := hs.natives_eq_nil (hnone hinactive rfl)
          constructor <;> simp [create, hnil, halive]

theorem childExit_owned {s s' : State} {handle : Nat} {code : Int32}
    (h : childExit handle code s = some s') (hs : Owned s) (halive : s.destroyed = false) :
    Owned s' := by
  unfold childExit at h
  split at h
  · cases h
    constructor
    · intro m hm
      rcases List.mem_map.1 hm with ⟨n, hn, rfl⟩
      have hsome := hs.session n hn
      split <;> exact hsome
    · simpa using hs.unique
    · simp [halive]
  · cases h

/-- One step keeps the ownership exactly when it is no `Start` that creates a
native over another one. -/
theorem step_owned_iff {a : Label} {s s' : State} (h : step a s = some s') (hv : Valid s)
    (hs : Owned s) : Owned s' ↔ StartsUnowned a s := by
  unfold step at h
  split at h
  · cases h
  · rename_i hdestroyed
    have halive : s.destroyed = false := by simpa using hdestroyed
    cases a with
    | start o =>
        cases h
        exact start_owned_iff hv hs halive o
    | stop =>
        cases h
        exact ⟨fun _ => trivial, fun _ => stop_owned hs⟩
    | restart o =>
        cases h
        rcases stop_natives hs with ⟨hsession, -⟩
        -- Restart stops first, so that its Start finds no native
        have hstopped : (stop s).destroyed = false := by
          unfold stop
          split <;> exact halive
        refine ⟨fun _ => trivial, fun _ => ?_⟩
        exact (start_owned_iff (stop_valid hv) (stop_owned hs) hstopped o).2 fun _ _ => hsession
    | setActive value o =>
        cases h
        cases value with
        | true =>
            -- True is Start of a control that is not active
            have hstart := start_owned_iff hv hs halive o
            by_cases hactive : s.active = true
            · simp [setActive, StartsUnowned, hactive, hs]
            · simp only [setActive, StartsUnowned]
              rw [if_neg (fun heq => hactive heq.symm), if_pos trivial]
              exact hstart
        | false =>
            refine ⟨fun _ => trivial, fun _ => ?_⟩
            unfold setActive
            split
            · exact hs
            · exact stop_owned hs
    | destroy =>
        cases h
        rcases stop_natives hs with ⟨-, hnil⟩
        refine ⟨fun _ => trivial, fun _ => ?_⟩
        constructor <;> simp [destroy, hnil]
    | childExit handle code =>
        exact ⟨fun _ => trivial, fun _ => childExit_owned h hs halive⟩
    | wmRataExit =>
        simp only [wmRataExit] at h
        split at h
        · cases h
        · cases h
          exact ⟨fun _ => trivial, fun _ => ⟨hs.session, hs.unique, hs.destroyed⟩⟩

/-! ## Whole runs -/

/-- A run of the control keeps the ownership, up to and after `Destroy`,
exactly when every `Start` in it that passes its guard and creates a native
finds `FSession` nil. -/
theorem owned_iff (as : List Label) :
    machine.Along Owned created as ↔ machine.Meets StartsUnowned created as := by
  refine Lts.Machine.along_iff_meets (I := Valid) ?_ ?_ as ?_ ?_
  · exact fun a s s' hstep hv => step_valid hstep hv
  · exact fun a s s' hstep hv hs => step_owned_iff hstep hv hs
  · constructor <;> simp [created]
  · constructor <;> simp [created]

/-- The child ends, the control learns of it, and the host starts again. -/
def startedAgain : List Label :=
  [.start .started, .childExit 0 7, .wmRataExit, .start .started, .destroy]

theorem restarted_leaks : ¬ ∀ s, machine.Reachable (fun _ _ => True) s → Owned s := by
  intro hall
  have hinit : machine.Init created := rfl
  have hmeets : machine.Meets (fun _ _ => True) created startedAgain := by
    decide +kernel
  have htest : (machine.run created startedAgain).any (fun s =>
      decide (s.destroyed = true ∧ s.natives = [⟨0, false⟩])) = true := by
    decide +kernel
  obtain ⟨s, -, hreach, hs⟩ := Lts.Machine.exists_reachable created startedAgain hinit hmeets htest
  rcases of_decide_eq_true hs with ⟨hdestroyed, hnatives⟩
  have hnil := (hall s hreach).destroyed hdestroyed
  rw [hnatives] at hnil
  cases hnil

end RataShell.Control
