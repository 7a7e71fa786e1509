import RataShell.Session.Moves

/-!
# A start that fails

The fallible prefix of `Session::start`. On an early return its locals go in the
reverse of their order: a `ReaderThread` joins its thread, a `PtyHost` closes the
pseudo console, and its job kills the child.

* `cleansUp_iff`: which failures leave the session as it was.
* `writer_failure_hangs`: the reader is joined before its pipe is closed.
-/

namespace RataShell.StartFailure

open Session (Callbacks Event)

variable {τ : Type}

/-- The step that fails: `PtyHost::spawn` before there is a child or at `job.assign`,
`ReaderThread::spawn` or `WriterThread::spawn`. -/
inductive Failure where
  | ptyHost
  | jobAssign
  | reader
  | writer
deriving DecidableEq, Repr

/-- `RataError`, as far as `start` returns it. -/
inductive RataError where
  | state (what : String)
  | os
deriving DecidableEq, Repr

/-- The fields of the session that `start` stores to; a handle is there or not. -/
structure Slots where
  alive : Bool
  pty : Bool
  reader : Bool
  writer : Bool
  pump : Bool
  watcher : Bool
deriving DecidableEq, Repr

/-- Where `start` is; the last three are the drops of an early return. -/
inductive Point where
  | loadAlive
  | lockOptions
  | spawnPty
  | spawnReader
  | spawnWriter
  | dropReader
  | dropPty
  | dropJob
  | returned (res : Except RataError Unit)
deriving Repr

/-- A call of `start`: the session, the guard of its options, and the locals; `console`
has the child, its pipe, the channel of the reader and the reader. -/
structure Attempt (τ : Type) where
  slots : Slots
  optionsLocked : Bool
  point : Point
  spawned : Bool
  reading : Bool
  console : Session.State τ

/-- `start`, the reader with `n` bytes read, and the child. -/
inductive Label where
  | start
  | reader (n : Nat)
  | shellWrite (bytes : List UInt8)
deriving DecidableEq, Repr

/-! ## The machine -/

/-- `Drop for PtyHost`: the pseudo console is closed. -/
def closeConsole (c : Session.State τ) : Session.State τ := { c with start := .returned }

/-- The child ends: by `TerminateProcess`, or with its job. -/
def killChild (c : Session.State τ) : Session.State τ := { c with child := some 1 }

/-- `start`, where the step `f` fails. -/
def startStep (f : Failure) (s : Attempt τ) : Option (Attempt τ) :=
  match s.point with
  | .loadAlive =>
      if s.slots.alive then some { s with point := .returned (.error (.state "already running")) }
      else some { s with point := .lockOptions }
  | .lockOptions => some { s with optionsLocked := true, point := .spawnPty }
  | .spawnPty =>
      match f with
      | .ptyHost => some { s with optionsLocked := false, point := .returned (.error .os) }
      | .jobAssign =>
          -- the child is terminated and the console closed before `spawn` returns
          some { s with
            optionsLocked := false
            spawned := true
            console := closeConsole (killChild s.console)
            point := .returned (.error .os) }
      | _ => some { s with optionsLocked := false, spawned := true, point := .spawnReader }
  | .spawnReader =>
      match f with
      | .reader => some { s with point := .dropPty }
      | _ => some { s with reading := true, point := .spawnWriter }
  | .spawnWriter => some { s with point := .dropReader }
  | .dropReader =>
      -- `Drop for ReaderThread` joins
      if s.console.reader = .done then some { s with point := .dropPty } else none
  | .dropPty => some { s with console := closeConsole s.console, point := .dropJob }
  | .dropJob =>
      some { s with console := killChild s.console, point := .returned (.error .os) }
  | .returned _ => none

/-- The child runs and writes what it likes. -/
def step (f : Failure) (a : Label) (s : Attempt τ) : Option (Attempt τ) :=
  match a with
  | .start => startStep f s
  | .reader n =>
      if s.reading then (Session.readerStep n s.console).map fun c => { s with console := c }
      else none
  | .shellWrite bytes =>
      if s.spawned ∧ s.console.child = none then
        (Session.shellWriteStep bytes s.console).map fun c => { s with console := c }
      else none

/-- `start` is called. -/
def begin (slots : Slots) (term : τ) (title : String) (cbs : Callbacks) (code : Int32) :
    Attempt τ where
  slots := slots
  optionsLocked := false
  point := .loadAlive
  spawned := false
  reading := false
  console := Session.init term title cbs code

def machine (τ : Type) (f : Failure) (slots : Slots) : Lts.Machine (Attempt τ) Label where
  Init s := ∃ term title cbs code, s = begin slots term title cbs code
  step := step f

/-- No thread and no child of the attempt is left, and the options are unlocked. -/
def Released (s : Attempt τ) : Prop :=
  (s.reading = true → s.console.reader = .done) ∧ (s.spawned = true → s.console.child ≠ none) ∧
    s.optionsLocked = false

/-- `start` comes to its end, whatever the child and the reader have done before, and
returns an error with the session as it was. -/
structure CleansUp (τ : Type) (f : Failure) (slots : Slots) : Prop where
  returns : ∀ s, (machine τ f slots).Reachable (fun _ _ => True) s → ∃ s' res,
    (machine τ f slots).Steps (fun a _ => a = .start) s s' ∧ s'.point = .returned res
  unchanged : ∀ s, (machine τ f slots).Reachable (fun _ _ => True) s →
    ∀ res, s.point = .returned res → (∃ e, res = .error e) ∧ s.slots = slots ∧ Released s

/-! ## The reader and the console -/

/-- The pipe is open, and the reader has a reader of its channel: it goes on. -/
structure Open (c : Session.State τ) : Prop where
  closed : c.closed = false
  outputClosed : c.outputClosed = false
  drop : c.drop = .notStarted
  child : c.child = none
  reader : c.reader ≠ .done ∧ c.reader ≠ .send .eof

theorem init_open (term : τ) (title : String) (cbs : Callbacks) (code : Int32) :
    Open (Session.init term title cbs code) :=
  ⟨rfl, rfl, rfl, rfl, by simp [Session.init], by simp [Session.init]⟩

theorem Open.readerStep {n : Nat} {c c' : Session.State τ} (hc : Open c)
    (h : Session.readerStep n c = some c') : Open c' := by
  rcases hc with ⟨hclosed, houtput, hdrop, hchild, hreader⟩
  cases Session.readerStep_move h with
  | readEof _ heof => simp [Session.State.atEof, hclosed, houtput] at heof
  | readBytes => exact ⟨hclosed, houtput, hdrop, hchild, by simp, by simp⟩
  | sendBytes => exact ⟨hclosed, houtput, hdrop, hchild, by simp, by simp⟩
  | sendEof hr => exact absurd hr hreader.2
  | gone _ hgone => simp [Session.State.receiversGone, hdrop] at hgone

theorem Open.shellWriteStep {bytes : List UInt8} {c c' : Session.State τ} (hc : Open c)
    (h : Session.shellWriteStep bytes c = some c') : Open c' := by
  unfold Session.shellWriteStep at h
  split at h
  · cases h
  · cases h
    exact ⟨hc.closed, hc.outputClosed, hc.drop, hc.child, hc.reader⟩

/-! ## What holds at each point -/

/-- The locals at each point of `start`. -/
def Stage (f : Failure) (s : Attempt τ) : Prop :=
  match s.point with
  | .loadAlive =>
      s.optionsLocked = false ∧ s.spawned = false ∧ s.reading = false ∧ Open s.console
  | .lockOptions | .spawnPty =>
      s.slots.alive = false ∧ s.spawned = false ∧ s.reading = false ∧ Open s.console
  | .spawnReader =>
      s.slots.alive = false ∧ (f = .reader ∨ f = .writer) ∧ s.optionsLocked = false ∧
        s.reading = false ∧ Open s.console
  | .spawnWriter | .dropReader => s.slots.alive = false ∧ f = .writer ∧ Open s.console
  | .dropPty | .dropJob => f = .reader ∧ s.optionsLocked = false ∧ s.reading = false
  | .returned res => (∃ e, res = .error e) ∧ (f = .writer → s.slots.alive = true) ∧ Released s

theorem begin_stage (f : Failure) (slots : Slots) (term : τ) (title : String) (cbs : Callbacks)
    (code : Int32) : Stage f (begin slots term title cbs code) :=
  ⟨rfl, rfl, rfl, init_open term title cbs code⟩

variable {f : Failure} {slots : Slots} {s s' : Attempt τ}

theorem startStep_stage (h : startStep f s = some s') (hs : Stage f s) : Stage f s' := by
  unfold startStep at h
  unfold Stage at hs
  cases hpoint : s.point <;> simp only [hpoint] at h hs
  case loadAlive =>
    rcases hs with ⟨hlocked, hspawned, hreading, hopen⟩
    split at h
    · rename_i halive
      cases h
      exact ⟨⟨_, rfl⟩, fun _ => halive, by simp [hreading], by simp [hspawned], hlocked⟩
    · rename_i halive
      cases h
      exact ⟨Bool.eq_false_iff.2 halive, hspawned, hreading, hopen⟩
  case lockOptions =>
    cases h
    exact hs
  case spawnPty =>
    rcases hs with ⟨halive, hspawned, hreading, hopen⟩
    cases f with
    | ptyHost =>
        cases h
        exact ⟨⟨_, rfl⟩, fun hf => (by cases hf), by simp [hreading], by simp [hspawned], rfl⟩
    | jobAssign =>
        cases h
        exact ⟨⟨_, rfl⟩, fun hf => (by cases hf), by simp [hreading],
          by simp [closeConsole, killChild], rfl⟩
    | reader =>
        cases h
        exact ⟨halive, .inl rfl, rfl, hreading, hopen⟩
    | writer =>
        cases h
        exact ⟨halive, .inr rfl, rfl, hreading, hopen⟩
  case spawnReader =>
    rcases hs with ⟨halive, rfl | rfl, hlocked, hreading, hopen⟩
    · cases h
      exact ⟨rfl, hlocked, hreading⟩
    · cases h
      exact ⟨halive, rfl, hopen⟩
  case spawnWriter =>
    cases h
    exact hs
  case dropReader =>
    -- the reader goes on as long as its pipe is open
    split at h
    · rename_i hdone
      exact absurd hdone hs.2.2.reader.1
    · cases h
  case dropPty =>
    cases h
    exact hs
  case dropJob =>
    rcases hs with ⟨rfl, hlocked, hreading⟩
    cases h
    exact ⟨⟨_, rfl⟩, fun hf => (by cases hf), by simp [hreading], by simp [killChild], hlocked⟩
  case returned => cases h

/-- The reader and the child change only what is between them. -/
theorem step_stage {a : Label} (h : step f a s = some s') (hs : Stage f s) : Stage f s' := by
  cases a with
  | start => exact startStep_stage h hs
  | reader n =>
      simp only [step] at h
      split at h
      · rename_i hreading
        rcases Option.map_eq_some_iff.1 h with ⟨c, hc, rfl⟩
        unfold Stage at hs ⊢
        cases hpoint : s.point <;> simp only [hpoint] at hs ⊢
        case spawnWriter => exact ⟨hs.1, hs.2.1, hs.2.2.readerStep hc⟩
        case dropReader => exact ⟨hs.1, hs.2.1, hs.2.2.readerStep hc⟩
        case returned res =>
          have hdone := hs.2.2.1 hreading
          simp [Session.readerStep, hdone] at hc
        all_goals simp_all
      · cases h
  | shellWrite bytes =>
      simp only [step] at h
      split at h
      · rename_i hchild
        rcases Option.map_eq_some_iff.1 h with ⟨c, hc, rfl⟩
        unfold Stage at hs ⊢
        cases hpoint : s.point <;> simp only [hpoint] at hs ⊢
        case spawnReader =>
          rcases hs with ⟨halive, hf, hlocked, hreading, hopen⟩
          exact ⟨halive, hf, hlocked, hreading, hopen.shellWriteStep hc⟩
        case spawnWriter => exact ⟨hs.1, hs.2.1, hs.2.2.shellWriteStep hc⟩
        case dropReader => exact ⟨hs.1, hs.2.1, hs.2.2.shellWriteStep hc⟩
        case dropPty => exact hs
        case dropJob => exact hs
        case returned res => exact absurd hchild.2 (hs.2.2.2.1 hchild.1)
        all_goals simp_all
      · cases h

theorem step_slots {a : Label} (h : step f a s = some s') : s'.slots = s.slots := by
  cases a with
  | start =>
      simp only [step, startStep] at h
      repeat' split at h
      all_goals first | cases h; rfl | cases h
  | reader n =>
      simp only [step] at h
      split at h
      · rcases Option.map_eq_some_iff.1 h with ⟨c, _, rfl⟩
        rfl
      · cases h
  | shellWrite bytes =>
      simp only [step] at h
      split at h
      · rcases Option.map_eq_some_iff.1 h with ⟨c, _, rfl⟩
        rfl
      · cases h

theorem reachable_stage (hs : (machine τ f slots).Reachable (fun _ _ => True) s) :
    s.slots = slots ∧ Stage f s := by
  refine Lts.Machine.init_invariant (fun s => s.slots = slots ∧ Stage f s) ?_ ?_ hs
  · rintro s ⟨term, title, cbs, code, rfl⟩
    exact ⟨rfl, begin_stage f slots term title cbs code⟩
  · rintro a s s' _ hstep ⟨hslots, hstage⟩
    exact ⟨(step_slots hstep).trans hslots, step_stage hstep hstage⟩

/-! ## The end of `start` -/

/-- The steps of `start` that are left at most. -/
def Point.left : Point → Nat
  | .loadAlive => 8
  | .lockOptions => 7
  | .spawnPty => 6
  | .spawnReader => 5
  | .spawnWriter => 4
  | .dropReader => 3
  | .dropPty => 2
  | .dropJob => 1
  | .returned _ => 0

theorem startStep_left (h : startStep f s = some s') : s'.point.left < s.point.left := by
  unfold startStep at h
  cases hpoint : s.point <;> simp only [hpoint] at h
  all_goals (repeat' split at h) <;> cases h <;> simp [Point.left]

/-- Where `start` has no step, it has returned, or it joins the reader. -/
theorem startStep_none (h : startStep f s = none) :
    (∃ res, s.point = .returned res) ∨ s.point = .dropReader := by
  unfold startStep at h
  cases hpoint : s.point <;> simp only [hpoint] at h
  case dropReader => exact .inr rfl
  case returned res => exact .inl ⟨res, rfl⟩
  all_goals (repeat' split at h) <;> cases h

/-- `start` alone comes to its end, or to the join of the reader. -/
theorem exists_end (slots : Slots) (hs : Stage f s) :
    ∃ s', (machine τ f slots).Steps (fun a _ => a = .start) s s' ∧ Stage f s' ∧
      ((∃ res, s'.point = .returned res) ∨ s'.point = .dropReader) := by
  have hquiet := Lts.Machine.exists_quiescent (M := machine τ f slots) (T := fun a => a = .start)
    (I := Stage f) Nat.lt_wfRel.wf (fun s => s.point.left)
    (fun a s s' ha hstep hs => by
      subst ha
      exact ⟨startStep_stage hstep hs, startStep_left hstep⟩) hs
  rcases hquiet with ⟨s', hsteps, hstage, hnone⟩
  exact ⟨s', hsteps, hstage, startStep_none (hnone .start rfl)⟩

/-- A failed `WriterThread::spawn` never lets `start` return. -/
theorem writer_failure_hangs (halive : slots.alive = false)
    (hs : (machine τ .writer slots).Reachable (fun _ _ => True) s) (res : Except RataError Unit) :
    s.point ≠ .returned res := by
  intro hpoint
  rcases reachable_stage hs with ⟨hslots, hstage⟩
  unfold Stage at hstage
  simp only [hpoint] at hstage
  have halive' := hstage.2.1 trivial
  rw [hslots, halive] at halive'
  cases halive'

/-- A `start` that fails leaves the session as it was, with all of the attempt released,
exactly when it is not `WriterThread::spawn` that fails, or nothing is tried. -/
theorem cleansUp_iff (term : τ) (f : Failure) (slots : Slots) :
    CleansUp τ f slots ↔ slots.alive = true ∨ f ≠ .writer := by
  constructor
  · intro hclean
    by_contra hno
    rw [not_or, not_not, Bool.not_eq_true] at hno
    rcases hno with ⟨halive, rfl⟩
    have hbegin : (machine τ .writer slots).Reachable (fun _ _ => True)
        (begin slots term "" .default 0) := .init ⟨term, "", .default, 0, rfl⟩
    rcases hclean.returns _ hbegin with ⟨s', res, hsteps, hres⟩
    exact writer_failure_hangs halive (hbegin.trans (hsteps.mono fun _ _ _ => trivial)) res hres
  · intro hf
    constructor
    · intro s hs
      rcases reachable_stage hs with ⟨-, hstage⟩
      rcases exists_end slots hstage with ⟨s', hsteps, hstage', ⟨res, hres⟩ | hjoin⟩
      · exact ⟨s', res, hsteps, hres⟩
      · -- only after the failure of the writer is there a reader to join
        have hslots' := (reachable_stage (hs.trans (hsteps.mono fun _ _ _ => trivial))).1
        unfold Stage at hstage'
        simp only [hjoin] at hstage'
        rcases hstage' with ⟨halive, rfl, -⟩
        rw [hslots'] at halive
        simp [halive] at hf
    · intro s hs res hres
      rcases reachable_stage hs with ⟨hslots, hstage⟩
      unfold Stage at hstage
      simp only [hres] at hstage
      exact ⟨hstage.1, hslots, hstage.2.2⟩

/-- A session that has not been started. -/
def fresh : Slots := ⟨false, false, false, false, false, false⟩

/-- The writer fails, and `start` waits for a reader that waits for output. -/
theorem start_hangs : ¬ CleansUp Unit .writer fresh := by
  intro hclean
  have hinit : (machine Unit .writer fresh).Init (begin fresh () "" .default 0) :=
    ⟨(), "", .default, 0, rfl⟩
  have hmeets : (machine Unit .writer fresh).Meets (fun _ _ => True)
      (begin fresh () "" .default 0) (List.replicate 5 .start) := by decide +kernel
  have htest : ((machine Unit .writer fresh).run (begin fresh () "" .default 0)
      (List.replicate 5 .start)).any (fun s =>
        (match s.point with | .dropReader => true | _ => false) &&
          s.console.reader == .readFile) = true := by decide +kernel
  rcases Lts.Machine.exists_reachable _ _ hinit hmeets htest with ⟨s, -, hreach, hs⟩
  rw [Bool.and_eq_true, beq_iff_eq] at hs
  have hjoin : s.point = .dropReader := by
    have hpoint := hs.1
    cases hp : s.point <;> simp_all
  have hstuck : startStep .writer s = none := by simp [startStep, hjoin, hs.2]
  rcases hclean.returns s hreach with ⟨s', res, hsteps, hres⟩
  rcases Relation.ReflTransGen.cases_head hsteps with rfl | ⟨t, ⟨a, rfl, hstep⟩, -⟩
  · rw [hjoin] at hres
    cases hres
  · -- there is no step of `start`
    cases hstuck.symm.trans hstep

end RataShell.StartFailure
