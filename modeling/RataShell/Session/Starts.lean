import Mathlib.Logic.Function.Basic
import RataShell.Session.StartFailure

/-!
# The starts of one session

`start` called on one session any number of times, by any number of threads. Each call
that gets past its guard makes a run: a child with the threads around it, as in
`Session.State`. The runs share `alive`, `exit_code`, the callbacks and the terminal,
and the handles stored last take the place of those of the run before.

* `Restart`: what the threads of an earlier run can do to a later one.
* `StartRace`: what two calls at the same time can do.

A failed spawn is one step here; its clean-up is in `StartFailure`. The mutex of a field
is not in the state: two calls are at one field only after a race.
-/

namespace RataShell.Starts

open Session (Callbacks Event)
open StartFailure (RataError)

variable {κ τ : Type}

/-! ## The state -/

/-- The fields of the session that its threads share. -/
structure Shared (τ : Type) where
  alive : Bool
  exit_code : Int32
  callbacks : Callbacks
  term : τ
  current_title : String
  queue : List Event

/-- Where a call of `start` is; from `storeAlive` on it has made the run `i`. -/
inductive Call where
  | idle
  | loadAlive
  | lockOptions
  | spawn
  | storeAlive (i : Nat)
  | spawnPump (i : Nat)
  | storePty (i : Nat)
  | spawnWatcher (i : Nat)
  | storeReader (i : Nat)
  | dropWriter (i : Nat)
  | joinWriter (i : Nat)
  | storePump (i : Nat)
deriving DecidableEq, Repr

/-- The session, with the lock of its options and the runs whose reader and writer it
holds; the runs, the first one first; the calls of `start` and what they returned. -/
structure State (κ τ : Type) where
  shared : Shared τ
  optionsLocked : Bool
  reader : Option Nat
  writer : Option Nat
  runs : List (Session.State τ)
  calls : κ → Call
  results : List (κ × Except RataError Unit)

/-- A thread calls `start`, goes on in it, or its spawn fails; and a step of a run. -/
inductive Label (κ : Type) where
  | call (k : κ)
  | start (k : κ)
  | spawnFails (k : κ)
  | run (i : Nat) (a : Session.Label)
deriving DecidableEq, Repr

/-- The run with the shared fields as they are. -/
def Shared.load (sh : Shared τ) (r : Session.State τ) : Session.State τ :=
  { r with
    alive := sh.alive
    exit_code := sh.exit_code
    callbacks := sh.callbacks
    term := sh.term
    current_title := sh.current_title
    queue := sh.queue }

/-- The shared fields after a step of a run. -/
def Shared.ofRun (r : Session.State τ) : Shared τ :=
  ⟨r.alive, r.exit_code, r.callbacks, r.term, r.current_title, r.queue⟩

/-- A step of the run `i`. -/
def State.stepRun (s : State κ τ) (i : Nat)
    (f : Session.State τ → Option (Session.State τ)) : Option (State κ τ) :=
  match s.runs[i]? with
  | none => none
  | some r =>
      match f (s.shared.load r) with
      | none => none
      | some r' => some { s with shared := .ofRun r', runs := s.runs.set i r' }

/-- The handles of an earlier run are dropped, with both ends of its reader's channel. -/
def release (r : Session.State τ) : Session.State τ :=
  { r with drop := .returned, dropper := some .host }

/-- The run is no longer that of `Session.pty`. -/
def dropPty (r : Session.State τ) : Session.State τ := { r with pty := false }

/-- The run is no longer that of `Session.writer`. -/
def dropHandles (r : Session.State τ) : Session.State τ := { r with handles := false }

/-- `Drop for WriterThread`, up to its join. -/
def sendSentinel (r : Session.State τ) : Session.State τ := { r with wchan := r.sendWriter [] }

variable [DecidableEq κ]

/-- The call `k` is at `c` now. -/
def State.goto (s : State κ τ) (k : κ) (c : Call) : State κ τ :=
  { s with calls := Function.update s.calls k c }

/-- The call `k` returns. -/
def State.reply (s : State κ τ) (k : κ) (res : Except RataError Unit) : State κ τ :=
  { s with calls := Function.update s.calls k .idle, results := s.results ++ [(k, res)] }

/-! ## The steps of `start` -/

/-- A step of the tail of `start`, for the run `i`. -/
def State.tail (s : State κ τ) (k : κ) (i : Nat) (c : Call) : Option (State κ τ) :=
  (s.stepRun i Session.startStep).map fun s' => s'.goto k c

/-- The writer is stored. -/
def storeWriter (k : κ) (i : Nat) (s : State κ τ) : Option (State κ τ) :=
  State.tail { s with writer := some i, runs := s.runs.map dropHandles } k i (.storePump i)

/-- The next step of the call `k`; a value that is assigned to a field drops the one
that was there. -/
def startStep (k : κ) (s : State κ τ) : Option (State κ τ) :=
  match s.calls k with
  | .idle => none
  | .loadAlive =>
      -- nothing of the guard lasts beyond this load
      if s.shared.alive then some (s.reply k (.error (.state "already running")))
      else some (s.goto k .lockOptions)
  | .lockOptions =>
      if s.optionsLocked then none
      else some ({ s with optionsLocked := true }.goto k .spawn)
  | .spawn =>
      -- the PTY with its child, the reader and the writer
      some ({ s with
        optionsLocked := false
        runs := s.runs ++ [Session.init s.shared.term s.shared.current_title s.shared.callbacks
          s.shared.exit_code] }.goto k (.storeAlive s.runs.length))
  | .storeAlive i => s.tail k i (.spawnPump i)
  | .spawnPump i => s.tail k i (.storePty i)
  | .storePty i => State.tail { s with runs := s.runs.map dropPty } k i (.spawnWatcher i)
  | .spawnWatcher i => s.tail k i (.storeReader i)
  | .storeReader i =>
      match s.reader with
      | none => some ({ s with reader := some i }.goto k (.dropWriter i))
      | some j =>
          match s.runs[j]? with
          | none => none
          | some r =>
              -- `Drop for ReaderThread` joins
              if r.reader = .done then
                some ({ s with reader := some i, runs := s.runs.set j (release r) }.goto k
                  (.dropWriter i))
              else none
  | .dropWriter i =>
      match s.writer with
      | none => storeWriter k i s
      | some j =>
          match s.runs[j]? with
          | none => none
          -- `Drop for WriterThread` sends the sentinel, and joins
          | some r => some ({ s with runs := s.runs.set j (sendSentinel r) }.goto k (.joinWriter i))
  | .joinWriter i =>
      match s.writer with
      | none => none
      | some j =>
          match s.runs[j]? with
          | none => none
          | some r => if r.writer = .done then storeWriter k i s else none
  | .storePump _ => some (s.reply k (.ok ()))

/-- The steps of the threads of a run, of its child and of the host's other calls. -/
def inRun : Session.Label → Bool
  | .start | .drop | .beginDrop _ => false
  | _ => true

def step (advance : τ → List UInt8 → τ × List Event) (a : Label κ) (s : State κ τ) :
    Option (State κ τ) :=
  match a with
  | .call k => if s.calls k = .idle then some (s.goto k .loadAlive) else none
  | .start k => startStep k s
  | .spawnFails k =>
      if s.calls k = .spawn then some ({ s with optionsLocked := false }.reply k (.error .os))
      else none
  | .run i a => if inRun a then s.stepRun i (Session.step advance a) else none

/-- A session that has not been started. -/
def created (sh : Shared τ) : State κ τ where
  shared := sh
  optionsLocked := false
  reader := none
  writer := none
  runs := []
  calls _ := .idle
  results := []

variable (κ) in
def machine (advance : τ → List UInt8 → τ × List Event) : Lts.Machine (State κ τ) (Label κ) where
  Init s := ∃ sh, sh.alive = false ∧ s = created sh
  step := step advance

/-! ## Conditions on a run -/

/-- The run whose output pipe a step ends. -/
def Label.closes : Label κ → Option Nat
  | .run i .closeOutput => some i
  | _ => none

/-- An output pipe ends only after its child has. -/
def EndsAfterChild : Lts.StepCond (State κ τ) (Label κ) := fun a s =>
  ∀ i ∈ a.closes, ∀ r ∈ s.runs[i]?, r.child ≠ none

instance (a : Label κ) (s : State κ τ) : Decidable (EndsAfterChild a s) :=
  inferInstanceAs (Decidable (∀ i ∈ a.closes, ∀ r ∈ s.runs[i]?, r.child ≠ none))

/-! ## What the steps do -/

/-- The steps of a call of `start`. -/
inductive CallMove (k : κ) (s : State κ τ) : State κ τ → Prop
  | refused (hcall : s.calls k = .loadAlive) (halive : s.shared.alive = true) :
      CallMove k s (s.reply k (.error (.state "already running")))
  | passes (hcall : s.calls k = .loadAlive) (halive : s.shared.alive = false) :
      CallMove k s (s.goto k .lockOptions)
  | locks (hcall : s.calls k = .lockOptions) :
      CallMove k s ({ s with optionsLocked := true }.goto k .spawn)
  | spawns (hcall : s.calls k = .spawn) :
      CallMove k s ({ s with
        optionsLocked := false
        runs := s.runs ++ [Session.init s.shared.term s.shared.current_title s.shared.callbacks
          s.shared.exit_code] }.goto k (.storeAlive s.runs.length))
  | storeAlive {i s'} (hcall : s.calls k = .storeAlive i)
      (h : s.tail k i (.spawnPump i) = some s') : CallMove k s s'
  | spawnPump {i s'} (hcall : s.calls k = .spawnPump i)
      (h : s.tail k i (.storePty i) = some s') : CallMove k s s'
  | storePty {i s'} (hcall : s.calls k = .storePty i)
      (h : State.tail { s with runs := s.runs.map dropPty } k i (.spawnWatcher i) = some s') :
      CallMove k s s'
  | spawnWatcher {i s'} (hcall : s.calls k = .spawnWatcher i)
      (h : s.tail k i (.storeReader i) = some s') : CallMove k s s'
  | storeReader {i} (hcall : s.calls k = .storeReader i) (hreader : s.reader = none) :
      CallMove k s ({ s with reader := some i }.goto k (.dropWriter i))
  | joinReader {i j r} (hcall : s.calls k = .storeReader i) (hreader : s.reader = some j)
      (hr : s.runs[j]? = some r) (hdone : r.reader = .done) :
      CallMove k s ({ s with reader := some i, runs := s.runs.set j (release r) }.goto k
        (.dropWriter i))
  | dropWriter {i j r} (hcall : s.calls k = .dropWriter i) (hwriter : s.writer = some j)
      (hr : s.runs[j]? = some r) :
      CallMove k s ({ s with runs := s.runs.set j (sendSentinel r) }.goto k (.joinWriter i))
  | storeWriter {i s'} (hcall : s.calls k = .dropWriter i ∨ s.calls k = .joinWriter i)
      (h : storeWriter k i s = some s') : CallMove k s s'
  | returns {i} (hcall : s.calls k = .storePump i) : CallMove k s (s.reply k (.ok ()))

theorem startStep_move {k : κ} {s s' : State κ τ} (h : startStep k s = some s') :
    CallMove k s s' := by
  unfold startStep at h
  cases hcall : s.calls k with
  | idle => simp [hcall] at h
  | loadAlive =>
      simp only [hcall] at h
      split at h <;> cases h
      · exact .refused hcall ‹_›
      · exact .passes hcall (Bool.eq_false_iff.2 ‹_›)
  | lockOptions =>
      simp only [hcall] at h
      split at h <;> cases h
      exact .locks hcall
  | spawn =>
      simp only [hcall] at h
      cases h
      exact .spawns hcall
  | storeAlive i => exact .storeAlive hcall (by simpa only [hcall] using h)
  | spawnPump i => exact .spawnPump hcall (by simpa only [hcall] using h)
  | storePty i => exact .storePty hcall (by simpa only [hcall] using h)
  | spawnWatcher i => exact .spawnWatcher hcall (by simpa only [hcall] using h)
  | storeReader i =>
      simp only [hcall] at h
      split at h
      · cases h
        exact .storeReader hcall ‹_›
      · split at h
        · cases h
        · split at h <;> cases h
          exact .joinReader hcall ‹_› ‹_› ‹_›
  | dropWriter i =>
      simp only [hcall] at h
      split at h
      · exact .storeWriter (.inl hcall) h
      · split at h <;> cases h
        exact .dropWriter hcall ‹_› ‹_›
  | joinWriter i =>
      simp only [hcall] at h
      repeat' split at h
      all_goals first | exact .storeWriter (.inr hcall) h | cases h
  | storePump i =>
      simp only [hcall] at h
      cases h
      exact .returns hcall

/-- The steps of the session. -/
inductive Move (advance : τ → List UInt8 → τ × List Event) (s : State κ τ) :
    Label κ → State κ τ → Prop
  | call {k} (hcall : s.calls k = .idle) : Move advance s (.call k) (s.goto k .loadAlive)
  | start {k s'} (h : startStep k s = some s') : Move advance s (.start k) s'
  | spawnFails {k} (hcall : s.calls k = .spawn) :
      Move advance s (.spawnFails k) ({ s with optionsLocked := false }.reply k (.error .os))
  | run {i a s'} (ha : inRun a = true) (h : s.stepRun i (Session.step advance a) = some s') :
      Move advance s (.run i a) s'

theorem step_move {advance : τ → List UInt8 → τ × List Event} {a : Label κ} {s s' : State κ τ}
    (h : step advance a s = some s') : Move advance s a s' := by
  cases a with
  | call k =>
      simp only [step] at h
      split at h <;> cases h
      exact .call ‹_›
  | start k => exact .start h
  | spawnFails k =>
      simp only [step] at h
      split at h <;> cases h
      exact .spawnFails ‹_›
  | run i a =>
      simp only [step] at h
      split at h
      · exact .run ‹_› h
      · cases h

end RataShell.Starts
