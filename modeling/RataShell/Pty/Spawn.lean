import Mathlib.Tactic.Tauto
import RataShell.Lib.Ledger

/-!
# The resources of a pseudo console

`PtyHost::spawn` with `JobHandle::create` and `assign`, where each call to Win32 may
fail, and `Drop` of the `PtyHost`.

* `spawn_sound`: nothing is released twice, whatever fails.
* `spawn_clean_iff`: the outcomes of the calls for which nothing leaks.
* `spawn_leaks`: with `CreateJobObjectW` failed, the pseudo console, two pipe ends and the
  attribute list stay open.
-/

namespace RataShell.Pty

/-! ## Resources and calls -/

/-- What `spawn` opens. -/
inductive Resource where
  | inputRead | inputWrite | outputRead | outputWrite
  | pseudoConsole
  | attributeList
  | job
  | hProcess | hThread
deriving DecidableEq, Repr

/-- The calls that may fail, in their order in the source. -/
inductive Call where
  | createInputPipe
  | createOutputPipe
  | createPseudoConsole
  | closeInputRead
  | closeOutputWrite
  | initializeList
  | updateAttribute
  | createJob
  | setInformation
  | createProcess
  | assign
  | terminate
  | closeThread
  | closeProcess
  | closeInputWrite
  | closeOutputRead
  | closeJob
deriving DecidableEq, Repr

/-- What the calls come to. -/
structure Outcomes where
  ok : Call → Bool
  /-- The size that the first `InitializeProcThreadAttributeList` asks for. -/
  sizeNeeded : Nat
  /-- `ClosePseudoConsole` ends the child that is attached. -/
  closeEnds : Bool

/-- The resources, and whether the child runs. -/
structure World where
  ledger : Ledger Resource
  running : Bool
deriving DecidableEq

namespace World

def start : World where
  ledger := .empty
  running := false

/-- A call has opened some resources. -/
def acquire (rs : Finset Resource) (w : World) : World := { w with ledger := w.ledger.acquire rs }

/-- `CloseHandle`. -/
def closeHandle (ok : Bool) (r : Resource) (w : World) : World :=
  { w with ledger := w.ledger.close ok r }

/-- `DeleteProcThreadAttributeList`. -/
def deleteList (w : World) : World := { w with ledger := w.ledger.release .attributeList }

/-- `ClosePseudoConsole`. -/
def closePseudoConsole (o : Outcomes) (w : World) : World where
  ledger := w.ledger.release .pseudoConsole
  running := w.running && !o.closeEnds

/-- `CreateProcessW`. -/
def createProcess (w : World) : World where
  ledger := w.ledger.acquire {.hProcess, .hThread}
  running := true

/-- `TerminateProcess`. -/
def terminate (ok : Bool) (w : World) : World := { w with running := w.running && !ok }

/-- The end of each block that cleans up. -/
def closeConsole (o : Outcomes) (w : World) : World :=
  ((w.closePseudoConsole o).closeHandle (o.ok .closeInputWrite) .inputWrite).closeHandle
    (o.ok .closeOutputRead) .outputRead

@[simp] theorem live_start : start.ledger.live = ∅ := rfl
@[simp] theorem running_start : start.running = false := rfl

@[simp] theorem released_start : start.ledger.released = [] := rfl

@[simp] theorem released_acquire (rs : Finset Resource) (w : World) :
    (w.acquire rs).ledger.released = w.ledger.released := rfl

@[simp] theorem mem_released_closeHandle {ok : Bool} {r r' : Resource} {w : World} :
    r ∈ (w.closeHandle ok r').ledger.released ↔ r ∈ w.ledger.released ∨ ok = true ∧ r = r' :=
  Ledger.mem_released_close

@[simp] theorem mem_acquire {r : Resource} {rs : Finset Resource} {w : World} :
    r ∈ (w.acquire rs).ledger.live ↔ r ∈ w.ledger.live ∨ r ∈ rs := Ledger.mem_acquire

@[simp] theorem running_acquire (rs : Finset Resource) (w : World) :
    (w.acquire rs).running = w.running := rfl

@[simp] theorem mem_closeHandle {ok : Bool} {r r' : Resource} {w : World} :
    r ∈ (w.closeHandle ok r').ledger.live ↔ (ok = true → r ≠ r') ∧ r ∈ w.ledger.live :=
  Ledger.mem_close

@[simp] theorem running_closeHandle (ok : Bool) (r : Resource) (w : World) :
    (w.closeHandle ok r).running = w.running := rfl

@[simp] theorem mem_deleteList {r : Resource} {w : World} :
    r ∈ w.deleteList.ledger.live ↔ r ≠ .attributeList ∧ r ∈ w.ledger.live := Ledger.mem_release

@[simp] theorem running_deleteList (w : World) : w.deleteList.running = w.running := rfl

@[simp] theorem mem_createProcess {r : Resource} {w : World} :
    r ∈ w.createProcess.ledger.live ↔ r ∈ w.ledger.live ∨ r = .hProcess ∨ r = .hThread := by
  simp [createProcess]

@[simp] theorem running_createProcess (w : World) : w.createProcess.running = true := rfl

@[simp] theorem ledger_terminate (ok : Bool) (w : World) :
    (w.terminate ok).ledger = w.ledger := rfl

@[simp] theorem running_terminate (ok : Bool) (w : World) :
    (w.terminate ok).running = (w.running && !ok) := rfl

@[simp] theorem mem_closeConsole {o : Outcomes} {r : Resource} {w : World} :
    r ∈ (w.closeConsole o).ledger.live ↔
      (o.ok .closeOutputRead = true → r ≠ .outputRead) ∧
        (o.ok .closeInputWrite = true → r ≠ .inputWrite) ∧
          r ≠ .pseudoConsole ∧ r ∈ w.ledger.live := by
  simp [closeConsole, closePseudoConsole]

@[simp] theorem running_closeConsole (o : Outcomes) (w : World) :
    (w.closeConsole o).running = (w.running && !o.closeEnds) := rfl

end World

/-! ## The source -/

/-- `PtyHost`; of `attr_buf` the length. -/
structure PtyHost where
  hpcon : Resource
  inputWrite : Resource
  outputRead : Resource
  hProcess : Resource
  hThread : Resource
  job : Resource
  attrBuf : Nat
deriving DecidableEq, Repr

/-- The `PtyHost` at the end of `spawn`. -/
def PtyHost.spawned (hJob : Resource) (sizeNeeded : Nat) : PtyHost where
  hpcon := .pseudoConsole
  inputWrite := .inputWrite
  outputRead := .outputRead
  hProcess := .hProcess
  hThread := .hThread
  job := hJob
  attrBuf := sizeNeeded

/-- `JobHandle::create`; the handle is bare until both calls have succeeded. -/
def createJob (o : Outcomes) (w : World) : Except Call Resource × World :=
  if !o.ok .createJob then (.error .createJob, w)
  else
    let w := w.acquire {.job}
    if !o.ok .setInformation then (.error .setInformation, w)
    else (.ok .job, w)

/-- `PtyHost::spawn`; an error is that of the call named. -/
def spawn (o : Outcomes) : Except Call PtyHost × World :=
  let w := World.start
  if !o.ok .createInputPipe then (.error .createInputPipe, w)
  else
    let w := w.acquire {.inputRead, .inputWrite}
    if !o.ok .createOutputPipe then (.error .createOutputPipe, w)
    else
      let w := w.acquire {.outputRead, .outputWrite}
      if !o.ok .createPseudoConsole then (.error .createPseudoConsole, w)
      else
        let w := w.acquire {.pseudoConsole}
        let w := w.closeHandle (o.ok .closeInputRead) .inputRead
        let w := w.closeHandle (o.ok .closeOutputWrite) .outputWrite
        if !o.ok .initializeList then (.error .initializeList, w.closeConsole o)
        else
          let w := w.acquire {.attributeList}
          if !o.ok .updateAttribute then (.error .updateAttribute, w.deleteList.closeConsole o)
          else
            match createJob o w with
            | (.error e, w) => (.error e, w)
            | (.ok hJob, w) =>
                -- from here on an error drops the `JobHandle` as well
                if !o.ok .createProcess then
                  (.error .createProcess,
                    (w.deleteList.closeConsole o).closeHandle (o.ok .closeJob) hJob)
                else
                  let w := w.createProcess
                  if !o.ok .assign then
                    let w := w.terminate (o.ok .terminate)
                    let w := w.closeHandle (o.ok .closeThread) .hThread
                    let w := w.closeHandle (o.ok .closeProcess) .hProcess
                    (.error .assign,
                      (w.deleteList.closeConsole o).closeHandle (o.ok .closeJob) hJob)
                  else
                    (.ok (.spawned hJob o.sizeNeeded), w)

namespace PtyHost

/-- What a `PtyHost` owns. -/
def owned (p : PtyHost) : Finset Resource :=
  {p.hpcon, p.inputWrite, p.outputRead, p.hProcess, p.hThread, p.job, .attributeList}

/-- What `Drop` releases, in order: the body, then the fields. -/
def drops (p : PtyHost) : List Resource :=
  [p.hpcon, p.hProcess, p.hThread] ++ (if p.attrBuf = 0 then [] else [.attributeList]) ++
    [p.inputWrite, p.outputRead, p.job]

/-- `Drop`; the job ends the child. -/
def drop (p : PtyHost) (w : World) : World where
  ledger := w.ledger.releaseAll p.drops
  running := false

end PtyHost

/-- With an error nothing stays; otherwise what stays is what the `PtyHost` owns, and
each of it is released exactly once when that is dropped. -/
def Clean : Except Call PtyHost × World → Prop
  | (.error _, w) => w.ledger.live = ∅ ∧ w.running = false
  | (.ok p, w) =>
      w.ledger.live = p.owned ∧ (p.drop w).ledger.live = ∅ ∧
        ∀ r ∈ p.owned, (p.drop w).ledger.released.count r = 1

/-! ## Each release once -/

namespace World

variable {w : World}

theorem sound_start : start.ledger.Sound := .empty

theorem sound_acquire (rs : Finset Resource) (h : w.ledger.Sound)
    (hnew : ∀ r ∈ w.ledger.released, r ∉ rs) : (w.acquire rs).ledger.Sound := h.acquire hnew

theorem sound_closeHandle (ok : Bool) {r : Resource} (h : w.ledger.Sound)
    (hr : r ∈ w.ledger.live) : (w.closeHandle ok r).ledger.Sound := h.close hr

theorem sound_deleteList (h : w.ledger.Sound) (hlist : .attributeList ∈ w.ledger.live) :
    w.deleteList.ledger.Sound := h.release hlist

theorem sound_createProcess (h : w.ledger.Sound)
    (hnew : ∀ r ∈ w.ledger.released, r ∉ ({.hProcess, .hThread} : Finset Resource)) :
    w.createProcess.ledger.Sound := h.acquire hnew

theorem sound_terminate (ok : Bool) (h : w.ledger.Sound) : (w.terminate ok).ledger.Sound := h

theorem sound_closeConsole (o : Outcomes) (h : w.ledger.Sound)
    (hconsole : .pseudoConsole ∈ w.ledger.live) (hwrite : .inputWrite ∈ w.ledger.live)
    (hread : .outputRead ∈ w.ledger.live) : (w.closeConsole o).ledger.Sound := by
  refine Ledger.Sound.close (Ledger.Sound.close (h.release hconsole) ?_) ?_
  · simpa using hwrite
  · simpa using hread

end World

open World in
/-- Whatever fails, nothing is released twice or while it is not open. -/
theorem spawn_sound (o : Outcomes) : (spawn o).2.ledger.Sound := by
  unfold spawn createJob
  simp only
  -- one fact for each call, up to the one that fails
  have hstart := sound_start
  split
  · exact hstart
  have hinput := sound_acquire {.inputRead, .inputWrite} hstart (by simp)
  split
  · exact hinput
  have hpipes := sound_acquire {.outputRead, .outputWrite} hinput (by simp)
  split
  · exact hpipes
  have hconsole := sound_acquire {.pseudoConsole} hpipes (by simp)
  have hread := sound_closeHandle (o.ok .closeInputRead) hconsole (r := .inputRead) (by simp)
  have hopen := sound_closeHandle (o.ok .closeOutputWrite) hread (r := .outputWrite) (by simp)
  split
  · exact sound_closeConsole o hopen (by simp) (by simp) (by simp)
  have hlist := sound_acquire {.attributeList} hopen (by simp; grind)
  split
  · exact sound_closeConsole o (sound_deleteList hlist (by simp)) (by simp) (by simp) (by simp)
  cases o.ok .createJob with
  | false => exact hlist
  | true =>
  have hjob := sound_acquire {.job} hlist (by simp; grind)
  cases o.ok .setInformation with
  | false => exact hjob
  | true =>
  simp only [Bool.not_true, Bool.false_eq_true, if_false]
  split
  · have hclean := sound_closeConsole o (sound_deleteList hjob (by simp)) (by simp) (by simp)
      (by simp)
    exact sound_closeHandle (o.ok .closeJob) hclean (by simp)
  have hprocess := sound_createProcess hjob (by simp; grind)
  split
  · have hended := sound_terminate (o.ok .terminate) hprocess
    have hthread := sound_closeHandle (o.ok .closeThread) hended (r := .hThread) (by simp)
    have hhandles := sound_closeHandle (o.ok .closeProcess) hthread (r := .hProcess) (by simp)
    have hclean := sound_closeConsole o (sound_deleteList hhandles (by simp)) (by simp) (by simp)
      (by simp)
    exact sound_closeHandle (o.ok .closeJob) hclean (by simp)
  · exact hprocess

/-! ## When nothing leaks -/

/-- The handles that each clean-up closes are closed. -/
def Outcomes.Closes (o : Outcomes) : Prop :=
  o.ok .closeInputWrite = true ∧ o.ok .closeOutputRead = true

/-- The calls that make `spawn` leave by a bare `?` succeed, save the first, and so do
those that close what the others have opened. -/
def Outcomes.Tidy (o : Outcomes) : Prop :=
  o.ok .createInputPipe = true →
    (o.ok .createOutputPipe = true ∧ o.ok .createPseudoConsole = true) ∧
    (o.ok .closeInputRead = true ∧ o.ok .closeOutputWrite = true) ∧
    (o.ok .initializeList = false ∨ o.ok .updateAttribute = false → o.Closes) ∧
    (o.ok .initializeList = true ∧ o.ok .updateAttribute = true →
      (o.ok .createJob = true ∧ o.ok .setInformation = true) ∧
      (o.ok .createProcess = false → o.Closes ∧ o.ok .closeJob = true) ∧
      (o.ok .createProcess = true ∧ o.ok .assign = false →
        (o.Closes ∧ o.ok .closeJob = true) ∧
        (o.ok .closeThread = true ∧ o.ok .closeProcess = true) ∧
        (o.ok .terminate = true ∨ o.closeEnds = true)) ∧
      (o.ok .createProcess = true ∧ o.ok .assign = true → o.sizeNeeded ≠ 0))

theorem Resource.forall_iff {p : Resource → Prop} :
    (∀ r, p r) ↔ (p .inputRead ∧ p .inputWrite ∧ p .outputRead ∧ p .outputWrite) ∧
      p .pseudoConsole ∧ p .attributeList ∧ p .job ∧ p .hProcess ∧ p .hThread := by
  constructor
  · intro h
    exact ⟨⟨h _, h _, h _, h _⟩, h _, h _, h _, h _, h _⟩
  · rintro ⟨⟨hir, hiw, hor, how⟩, hpc, hal, hjob, hhp, hht⟩ (_ | _)
    all_goals assumption

theorem clean_error {e : Call} {w : World} :
    Clean (.error e, w) ↔ (∀ r, r ∉ w.ledger.live) ∧ w.running = false := by
  rw [Clean, Finset.eq_empty_iff_forall_notMem]

/-- `Drop` releases all that is owned, save an attribute list of no bytes. -/
theorem mem_drops (n : Nat) (r : Resource) :
    r ∈ (PtyHost.spawned .job n).drops ↔
      r ∈ (PtyHost.spawned .job n).owned ∧ (r = .attributeList → n ≠ 0) := by
  by_cases hn : n = 0 <;> cases r <;> simp [PtyHost.drops, PtyHost.owned, PtyHost.spawned, hn]

theorem nodup_drops (n : Nat) : (PtyHost.spawned .job n).drops.Nodup := by
  by_cases hn : n = 0 <;> simp [PtyHost.drops, PtyHost.spawned, hn]

theorem clean_ok {n : Nat} {w : World} (hsound : w.ledger.Sound) :
    Clean (.ok (.spawned .job n), w) ↔
      w.ledger.live = (PtyHost.spawned .job n).owned ∧ n ≠ 0 := by
  have hlist : .attributeList ∈ (PtyHost.spawned .job n).owned := by
    simp [PtyHost.owned]
  constructor
  · rintro ⟨hlive, hgone, -⟩
    refine ⟨hlive, fun hn => ?_⟩
    have hstays : .attributeList ∈ ((PtyHost.spawned .job n).drop w).ledger.live := by
      refine Ledger.mem_releaseAll.2 ⟨fun hdrops => ?_, hlive ▸ hlist⟩
      exact ((mem_drops n _).1 hdrops).2 rfl hn
    rw [hgone] at hstays
    exact Finset.notMem_empty _ hstays
  · rintro ⟨hlive, hn⟩
    have hmem : ∀ r, r ∈ (PtyHost.spawned .job n).drops ↔ r ∈ w.ledger.live := by
      intro r
      rw [mem_drops, hlive, and_iff_left fun _ => hn]
    refine ⟨hlive, Finset.eq_empty_iff_forall_notMem.2 fun r hr => ?_, fun r hr => ?_⟩
    · rcases Ledger.mem_releaseAll.1 hr with ⟨hnot, hin⟩
      exact hnot ((hmem r).2 hin)
    · exact hsound.count_releaseAll (nodup_drops n) (fun r hr => (hmem r).1 hr)
        ((hmem r).2 (hlive ▸ hr))

/-- The exact outcomes for which nothing leaks. -/
theorem spawn_clean_iff (o : Outcomes) : Clean (spawn o) ↔ o.Tidy := by
  unfold spawn createJob Outcomes.Tidy Outcomes.Closes
  -- one case for each way out, in their order in the source
  cases hpipe : o.ok .createInputPipe with
  | false => simp [clean_error]
  | true =>
  cases hpipe' : o.ok .createOutputPipe with
  | false => simp [clean_error, Resource.forall_iff]
  | true =>
  cases hconsole : o.ok .createPseudoConsole with
  | false => simp [clean_error, Resource.forall_iff]
  | true =>
  cases hlist : o.ok .initializeList with
  | false =>
      simp [clean_error, Resource.forall_iff]
      tauto
  | true =>
  cases hattribute : o.ok .updateAttribute with
  | false =>
      simp [clean_error, Resource.forall_iff]
      tauto
  | true =>
  cases hjob : o.ok .createJob with
  | false => simp [clean_error, Resource.forall_iff]
  | true =>
  cases hlimit : o.ok .setInformation with
  | false => simp [clean_error, Resource.forall_iff]
  | true =>
  cases hprocess : o.ok .createProcess with
  | false =>
      simp [clean_error, Resource.forall_iff]
      tauto
  | true =>
  cases hassign : o.ok .assign with
  | false =>
      cases o.ok .terminate <;> simp [clean_error, Resource.forall_iff] <;> tauto
  | true =>
      have hsound := spawn_sound o
      simp only [spawn, createJob, hpipe, hpipe', hconsole, hlist, hattribute, hjob, hlimit,
        hprocess, hassign, Bool.not_true, Bool.false_eq_true, if_false] at hsound ⊢
      rw [clean_ok hsound, Finset.ext_iff, Resource.forall_iff]
      simp [PtyHost.owned, PtyHost.spawned]

/-- All calls succeed, save `CreateJobObjectW`. -/
def noJob : Outcomes where
  ok c := c ≠ .createJob
  sizeNeeded := 48
  closeEnds := true

/-- `spawn` fails, and what it has opened by then stays open. -/
theorem spawn_leaks :
    spawn noJob = (.error .createJob, (spawn noJob).2) ∧
      (spawn noJob).2.ledger.live = {.pseudoConsole, .inputWrite, .outputRead, .attributeList} ∧
        ¬ Clean (spawn noJob) := by
  have hlive : (spawn noJob).2.ledger.live =
      {.pseudoConsole, .inputWrite, .outputRead, .attributeList} := by
    decide
  refine ⟨rfl, hlive, fun hclean => ?_⟩
  have hnone : (spawn noJob).2.ledger.live = ∅ := hclean.1
  rw [hlive] at hnone
  exact Finset.insert_ne_empty _ _ hnone

end RataShell.Pty
