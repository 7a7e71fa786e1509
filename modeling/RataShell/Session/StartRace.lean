import Mathlib.Data.Fintype.Basic
import RataShell.Session.Stages

/-!
# Two threads that start a session

Any number of host threads call `start`. The guard reads `alive`, which the same call
stores only after it has spawned the child.

* `race`: two calls that both read `alive` before either stores it spawn a child each; the
  one that comes second then waits for the reader of the first, while its child runs.
* `exclusive`: where no call gets past its guard while another has yet to store `alive`,
  there is one child, one `Ok`, and all other calls are refused.
-/

namespace RataShell.Starts

open StartFailure (RataError)

variable {κ τ : Type}

/-! ## What the host relies on -/

/-- The calls that have returned `Ok`. -/
def State.oks (s : State κ τ) : Nat := s.results.countP fun p => p.2.isOk

/-- There is one child at most, and all calls but the one that made it are refused. -/
structure Exclusive [DecidableEq κ] (advance : τ → List UInt8 → τ × List Session.Event)
    (s : State κ τ) : Prop where
  spawned : s.runs.length ≤ 1
  ok : s.oks ≤ 1
  /-- A call returns `Ok`, an `Err` for a session that runs, or that of its own spawn. -/
  others : ∀ p ∈ s.results, p.2 = .ok () ∨ p.2 = .error (.state "already running") ∨
    p.2 = .error .os
  /-- A call that comes once `alive` is stored returns, and changes nothing. -/
  refused : ∀ k, s.calls k = .loadAlive → (∃ r ∈ s.runs, r.start ≠ .storeAlive) →
    step advance (.start k) s = some (s.reply k (.error (.state "already running")))

/-! ## The condition -/

/-- A call that reads `alive` as false finds no other one between that read and its store;
an output pipe ends only after its child has. -/
def Apart : Lts.StepCond (State κ τ) (Label κ) := fun a s =>
  (∀ k, a = .start k → s.calls k = .loadAlive → s.shared.alive = false →
    ∀ k', (s.calls k').entering = false) ∧ EndsAfterChild a s

instance [Fintype κ] [DecidableEq κ] (a : Label κ) (s : State κ τ) : Decidable (Apart a s) :=
  inferInstanceAs (Decidable (_ ∧ _))

/-! ## The invariant -/

/-- The call is past its guard. -/
def Call.busy : Call → Bool
  | .idle | .loadAlive => false
  | _ => true

/-- No child has exited. -/
def Running (s : State κ τ) : Prop := ∀ c ∈ s.children, c = none

/-- One call at most is past its guard, and there is one run at most. -/
structure Alone (s : State κ τ) : Prop where
  runs : Runs s.shared.alive s.runs
  one : ∀ k k', (s.calls k).busy = true → (s.calls k').busy = true → k = k'
  stage : ∀ k, (∀ k', k' ≠ k → (s.calls k').busy = false) → Stage s (s.calls k)
  spawned : s.runs.length ≤ 1
  ok : s.oks ≤ s.runs.length
  busy : ∀ k, (s.calls k).busy = true → s.oks = 0

section Race

variable {advance : τ → List UInt8 → τ × List Session.Event} {s s' : State κ τ} {k : κ}

theorem Running.child {r : Session.State τ} (hrun : Running s) (hr : r ∈ s.runs) :
    r.child = none :=
  hrun r.child (List.mem_map_of_mem hr)

/-- A run that has stored `alive` keeps it up. -/
theorem At.alive_up {i : Nat} {st : Session.Start} (hat : At s.runs i st)
    (hs : Runs s.shared.alive s.runs) (hrun : Running s) (hst : st ≠ .storeAlive) :
    s.shared.alive = true := by
  rcases hat with ⟨hi, r, hr, rfl⟩
  have hlive := ((hs.ok i r hr).newest hi).live (hrun.child (List.mem_of_getElem? hr))
  exact hlive.alive hst

theorem AllReturned.runs_nil (hall : AllReturned s) (hs : Runs s.shared.alive s.runs)
    (hrun : Running s) (halive : s.shared.alive = false) : s.runs = [] := by
  by_contra hne
  have hlen := List.length_pos_iff.2 hne
  have hlt : s.runs.length - 1 < s.runs.length := by omega
  have hat : At s.runs (s.runs.length - 1) .returned :=
    ⟨by omega, _, List.getElem?_eq_getElem hlt, hall.1 _ (List.getElem_mem hlt)⟩
  have hup := hat.alive_up hs hrun (by simp)
  rw [halive] at hup
  cases hup

/-- A call that is past its guard, and before its store of `alive` or not. -/
theorem Stage.alive_up {c : Call} (hst : Stage s c) (hs : Runs s.shared.alive s.runs)
    (hrun : Running s) (hbusy : c.busy = true) (hentered : c.entering = false) :
    s.shared.alive = true := by
  cases c with
  | idle | loadAlive => cases hbusy
  | lockOptions | spawn | storeAlive => cases hentered
  | _ => exact At.alive_up hst.1 hs hrun (by simp)

theorem Alone.others (hs : Alone s) (hbusy : (s.calls k).busy = true) :
    ∀ k', k' ≠ k → (s.calls k').busy = false := fun _ hne =>
  Bool.eq_false_iff.2 fun hbusy' => hne (hs.one _ _ hbusy' hbusy)

/-- The first call to get past the guard. -/
theorem Alone.first (hs : Alone s) (hrun : Running s) (halive : s.shared.alive = false)
    (hapart : ∀ k', (s.calls k').entering = false) (hcall : s.calls k = .loadAlive) :
    (∀ k', (s.calls k').busy = false) ∧ s.runs = [] := by
  -- a call past its guard is entering, or has its run keep `alive` up
  have hnone : ∀ k', (s.calls k').busy = false := by
    intro k'
    by_contra hbusy
    rw [Bool.not_eq_false] at hbusy
    have hstage := hs.stage k' (hs.others hbusy)
    have hup := hstage.alive_up hs.runs hrun hbusy (hapart k')
    rw [halive] at hup
    cases hup
  have hstage := hs.stage k fun k' _ => hnone k'
  rw [hcall] at hstage
  exact ⟨hnone, AllReturned.runs_nil hstage hs.runs hrun halive⟩

/-- Where a call is says the same of states with the same runs and handles. -/
theorem Stage.congr {c : Call} (hst : Stage s c) (halive : s'.shared.alive = s.shared.alive)
    (hruns : s'.runs = s.runs) (hreader : s'.reader = s.reader) (hwriter : s'.writer = s.writer) :
    Stage s' c := by
  cases c <;> simpa only [Stage, AllReturned, Ending, halive, hruns, hreader, hwriter] using hst

/-- The stage of a call that is not past its guard. -/
theorem Stage.allReturned {c : Call} (hst : Stage s c) (hbusy : c.busy = false) :
    AllReturned s := by
  cases c with
  | idle | loadAlive => exact hst
  | _ => cases hbusy

theorem AllReturned.stage {c : Call} (hall : AllReturned s) (hbusy : c.busy = false) :
    Stage s c := by
  cases c with
  | idle | loadAlive => exact hall
  | _ => cases hbusy

/-- The calls change, none of them is past its guard, and no other one returns `Ok`. -/
theorem Alone.of_idle (hs : Alone s) (hall : AllReturned s) (hshared : s'.shared = s.shared)
    (hruns : s'.runs = s.runs) (hreader : s'.reader = s.reader) (hwriter : s'.writer = s.writer)
    (hbusy : ∀ k, (s'.calls k).busy = false) (hoks : s'.oks = s.oks) : Alone s' where
  runs := by rw [hshared, hruns]; exact hs.runs
  one k k' hk := by rw [hbusy k] at hk; cases hk
  stage k _ := by
    have hstage : Stage s (s'.calls k) := hall.stage (hbusy k)
    exact hstage.congr (by rw [hshared]) hruns hreader hwriter
  spawned := by rw [hruns]; exact hs.spawned
  ok := by rw [hoks, hruns]; exact hs.ok
  busy k hk := by rw [hbusy k] at hk; cases hk

/-- Calls that are not past the guard come and go. -/
theorem Alone.of_calls (hs : Alone s) (hshared : s'.shared = s.shared)
    (hruns : s'.runs = s.runs) (hreader : s'.reader = s.reader) (hwriter : s'.writer = s.writer)
    (hcalls : ∀ k, s'.calls k = s.calls k ∨
      (s'.calls k).busy = false ∧ (s.calls k).busy = false) (hoks : s'.oks = s.oks) :
    Alone s' := by
  have hbusy : ∀ k, (s'.calls k).busy = (s.calls k).busy := by
    intro k
    rcases hcalls k with hsame | ⟨h', h⟩
    · rw [hsame]
    · rw [h', h]
  refine ⟨?_, ?_, ?_, ?_, ?_, ?_⟩
  · rw [hshared, hruns]
    exact hs.runs
  · intro k k' hk hk'
    exact hs.one k k' (hbusy k ▸ hk) (hbusy k' ▸ hk')
  · intro k hothers
    have hstage := hs.stage k fun k' hne => hbusy k' ▸ hothers k' hne
    have hstage' : Stage s (s'.calls k) := by
      rcases hcalls k with hsame | ⟨h', h⟩
      · rwa [hsame]
      · exact (hstage.allReturned h).stage h'
    exact hstage'.congr (by rw [hshared]) hruns hreader hwriter
  · rw [hruns]
    exact hs.spawned
  · rw [hoks, hruns]
    exact hs.ok
  · intro k hk
    rw [hoks]
    exact hs.busy k (hbusy k ▸ hk)

theorem created_alone (sh : Shared τ) : Alone (created sh : State κ τ) where
  runs := created_runs sh sh.alive
  one k k' h := by cases h
  stage k _ := created_allReturned sh
  spawned := Nat.zero_le 1
  ok := Nat.le_refl 0
  busy k h := by cases h

/-- The answers of `start`. -/
def Answered (s : State κ τ) : Prop := ∀ p ∈ s.results,
  p.2 = .ok () ∨ p.2 = .error (.state "already running") ∨ p.2 = .error RataError.os

theorem Answered.append {res : Except RataError Unit} (hs : Answered s)
    (hres : s'.results = s.results ++ [(k, res)])
    (hok : res = .ok () ∨ res = .error (.state "already running") ∨ res = .error RataError.os) :
    Answered s' := by
  intro p hp
  rw [hres, List.mem_append, List.mem_singleton] at hp
  rcases hp with hp | rfl
  · exact hs p hp
  · exact hok

variable [DecidableEq κ]

/-- No step brings a child back. -/
theorem Running.of_step {a : Label κ} (h : step advance a s = some s') (hrun : Running s') :
    Running s := by
  cases step_move h with
  | call | spawnFails => exact hrun
  | start h =>
      intro c hc
      rcases (startStep_startFrame h).children with hsame | ⟨-, happend⟩
      · exact hrun c (hsame ▸ hc)
      · refine hrun c ?_
        rw [happend]
        exact List.mem_append_left _ hc
  | @run i _ _ ha h =>
      rcases stepRun_eq h with ⟨r, r', hr, hr', rfl⟩
      intro c hc
      rcases List.mem_map.1 hc with ⟨q, hq, rfl⟩
      rcases List.getElem?_of_mem hq with ⟨j, hj⟩
      by_cases hji : i = j
      · subst hji
        cases hr.symm.trans hj
        have hmem : r' ∈ s.runs.set i r' := List.mem_set (lt_length hr) r'
        exact (step_run hr' ha).child (Running.child hrun hmem)
      · refine Running.child hrun (List.mem_of_getElem? (i := j) ?_)
        rw [← hj]
        exact List.getElem?_set_ne hji

/-- A call that is past its guard spawns the first child, or none. -/
theorem Alone.length_le (hs : Alone s) (h : startStep k s = some s') (hrun : Running s)
    (hstage : Stage s (s.calls k)) :
    s.runs.length ≤ s'.runs.length ∧ s'.runs.length ≤ 1 := by
  have hlength : ∀ t : State κ τ, t.children.length = t.runs.length := fun t => List.length_map _
  rw [← hlength s, ← hlength s']
  rcases (startStep_startFrame h).children with hsame | ⟨hcall, happend⟩
  · rw [hsame, hlength]
    exact ⟨le_rfl, hs.spawned⟩
  · rw [hcall] at hstage
    have hnil := AllReturned.runs_nil hstage.2 hs.runs hrun hstage.1
    rw [happend]
    simp [State.children, hnil]

/-- It returns the first `Ok`, or goes on with none returned. -/
theorem Alone.oks_of_busy (hs : Alone s) (h : startStep k s = some s')
    (hbusy : (s.calls k).busy = true) (hstage : Stage s (s.calls k)) :
    s'.oks = 0 ∨ s'.calls k = .idle ∧ s'.oks = 1 ∧ 0 < s.runs.length := by
  have hoks : s.results.countP (fun p => p.2.isOk) = 0 := hs.busy k hbusy
  rcases (startStep_startFrame h).results with ⟨-, hres⟩ | ⟨hidle, ⟨hcall, -⟩ | ⟨i, hcall, hres⟩⟩
  · left
    rw [State.oks, hres, hoks]
  · rw [hcall] at hbusy
    cases hbusy
  · rw [hcall] at hstage
    have hi := hstage.1.1
    refine .inr ⟨hidle, ?_, by omega⟩
    rw [State.oks, hres, List.countP_append, hoks]
    rfl

/-- A call that is past its guard goes on. -/
theorem Alone.goes_on (hs : Alone s) (h : startStep k s = some s') (hrun : Running s)
    (hbusy : (s.calls k).busy = true) : Alone s' := by
  have hframe := startStep_startFrame h
  have hothers := hs.others hbusy
  have hothers' : ∀ k', k' ≠ k → (s'.calls k').busy = false := fun k' hne => by
    rw [hframe.calls k' hne]
    exact hothers k' hne
  have hself : ∀ k', (s'.calls k').busy = true → k' = k := fun k' hk' => by
    by_contra hne
    rw [hothers' k' hne] at hk'
    cases hk'
  have hstage := hs.stage k hothers
  -- there is no run before the one that the call makes
  have hnew : ∀ i, s.calls k = .storeAlive i →
      ∀ (j : Nat) (q : Session.State τ), j < i → s.runs[j]? = some q → Settled q := by
    intro i hcall j q hj
    rw [hcall] at hstage
    have hi := hstage.1.1
    have hle := hs.spawned
    omega
  rcases startStep_stage h hs.runs hstage hnew with ⟨hruns', hstage'⟩
  have hlength := hs.length_le h hrun hstage
  have hoks := hs.oks_of_busy h hbusy hstage
  refine ⟨hruns', ?_, ?_, hlength.2, ?_, ?_⟩
  · intro k' k'' hk' hk''
    rw [hself k' hk', hself k'' hk'']
  · intro k' hidle
    by_cases hkk : k' = k
    · rw [hkk]
      exact hstage'
    · have hall := hstage'.allReturned (hidle k fun heq => hkk heq.symm)
      exact hall.stage (hothers' k' hkk)
  · rcases hoks with hzero | ⟨-, hone, hpos⟩ <;> omega
  · intro k' hk'
    rcases hoks with hzero | ⟨hidle, -⟩
    · exact hzero
    · rw [hself k' hk', hidle] at hk'
      cases hk'

/-- A call that comes or goes changes no other one. -/
theorem Alone.of_call (hs : Alone s) (hbusy : (s.calls k).busy = false)
    (hshared : s'.shared = s.shared) (hruns : s'.runs = s.runs) (hreader : s'.reader = s.reader)
    (hwriter : s'.writer = s.writer) (hcalls : ∀ k', k' ≠ k → s'.calls k' = s.calls k')
    (hbusy' : (s'.calls k).busy = false) (hoks : s'.oks = s.oks) : Alone s' := by
  refine hs.of_calls hshared hruns hreader hwriter (fun k' => ?_) hoks
  by_cases hkk : k' = k
  · subst hkk
    exact .inr ⟨hbusy', hbusy⟩
  · exact .inl (hcalls k' hkk)

theorem Alone.refuse (hs : Alone s) (hcall : s.calls k = .loadAlive) (what : String) :
    Alone (s.reply k (.error (.state what))) := by
  refine hs.of_call (k := k) (by simp [hcall, Call.busy]) rfl rfl rfl rfl (fun k' hne => ?_)
    (by simp [Call.busy]) ?_
  · simp [State.reply, hne]
  · simp [State.oks, State.reply, Except.isOk, Except.toBool]

/-- A call that gets past its guard is the only one. -/
theorem Alone.pass (hs : Alone s) (hrun : Running s) (hcall : s.calls k = .loadAlive)
    (halive : s.shared.alive = false) (hapart : ∀ k', (s.calls k').entering = false) :
    Alone (s.goto k .lockOptions) := by
  rcases hs.first hrun halive hapart hcall with ⟨hnone, hnil⟩
  have hself : ∀ k', ((s.goto k .lockOptions).calls k').busy = true → k' = k := fun k' hk' => by
    by_contra hne
    simp [State.goto, hne, hnone k'] at hk'
  have hall := (hs.stage k fun k' _ => hnone k').allReturned (hnone k)
  have hoks : s.oks = 0 := by
    have hle := hs.ok
    rw [hnil] at hle
    exact Nat.le_zero.1 hle
  refine ⟨hs.runs, ?_, ?_, hs.spawned, hs.ok, fun _ _ => hoks⟩
  · intro k' k'' hk' hk''
    rw [hself k' hk', hself k'' hk'']
  · intro k' hothers
    by_cases hkk : k' = k
    · subst hkk
      rw [goto_calls]
      exact ⟨halive, hall⟩
    · have hbusy := hothers k fun heq => hkk heq.symm
      rw [goto_calls] at hbusy
      cases hbusy

theorem Alone.start (hs : Alone s) (h : startStep k s = some s') (hrun : Running s)
    (hapart : s.calls k = .loadAlive → s.shared.alive = false →
      ∀ k', (s.calls k').entering = false) : Alone s' := by
  have hmove := startStep_move h
  cases hmove with
  | refused hcall => exact hs.refuse hcall _
  | passes hcall halive => exact hs.pass hrun hcall halive (hapart hcall halive)
  | storeWriter hcall =>
      refine hs.goes_on h hrun ?_
      rcases hcall with hcall | hcall <;> simp [hcall, Call.busy]
  | locks hcall | spawns hcall | storeAlive hcall | spawnPump hcall | storePty hcall
  | spawnWatcher hcall | storeReader hcall | joinReader hcall | dropWriter hcall
  | returns hcall => exact hs.goes_on h hrun (by simp [hcall, Call.busy])

theorem step_alone {a : Label κ} (h : step advance a s = some s') (hC : Apart a s)
    (hrun : Running s) (hs : Alone s) : Alone s' := by
  cases step_move h with
  | @call k hcall =>
      refine hs.of_call (k := k) (by simp [hcall, Call.busy]) rfl rfl rfl rfl (fun k' hne => ?_)
        (by simp [Call.busy]) rfl
      simp [State.goto, hne]
  | @start k s' h => exact hs.start h hrun (hC.1 k rfl)
  | @spawnFails k hcall =>
      have hothers := hs.others (k := k) (by simp [hcall, Call.busy])
      have hstage := hs.stage k hothers
      rw [hcall] at hstage
      refine hs.of_idle hstage.2 rfl rfl rfl rfl (fun k' => ?_) ?_
      · by_cases hkk : k' = k
        · subst hkk
          rw [reply_calls]
          rfl
        · simpa [State.reply, hkk] using hothers k' hkk
      · simp [State.oks, State.reply, Except.isOk, Except.toBool]
  | @run i a _ ha h =>
      have hruns := hs.runs.run h ha fun hclose r hr => hC.2 i (hclose ▸ rfl) r hr
      have hstage := fun k hothers => (hs.stage k hothers).run h ha
      rcases stepRun_eq h with ⟨r, r', -, -, rfl⟩
      refine ⟨hruns, hs.one, hstage, ?_, ?_, hs.busy⟩
      · rw [List.length_set]
        exact hs.spawned
      · rw [List.length_set]
        exact hs.ok

theorem reachable_alone (h : (machine κ advance).Reachable Apart s) : Running s → Alone s := by
  refine Lts.Machine.init_invariant (fun s => Running s → Alone s) ?_ ?_ h
  · rintro _ ⟨sh, -, rfl⟩ -
    exact created_alone sh
  · intro a s s' hC hstep hs hrun'
    have hrun := Running.of_step hstep hrun'
    exact step_alone hstep hC hrun (hs hrun)

/-! ## One child and one `Ok` -/

theorem step_answered {a : Label κ} (h : step advance a s = some s') (hs : Answered s) :
    Answered s' := by
  cases step_move h with
  | call => exact hs
  | start h =>
      rcases (startStep_startFrame h).results with ⟨-, hres⟩ | ⟨-, ⟨-, hres⟩ | ⟨-, -, hres⟩⟩
      · rwa [Answered, hres]
      · exact hs.append hres (.inr (.inl rfl))
      · exact hs.append hres (.inl rfl)
  | spawnFails => exact hs.append rfl (.inr (.inr rfl))
  | run _ h =>
      rcases stepRun_eq h with ⟨r, r', -, -, rfl⟩
      exact hs

theorem reachable_answered {C : Lts.StepCond (State κ τ) (Label κ)}
    (h : (machine κ advance).Reachable C s) : Answered s := by
  refine Lts.Machine.init_invariant Answered ?_ (fun _ _ _ _ => step_answered) h
  rintro _ ⟨sh, -, rfl⟩ p hp
  simp [created] at hp

theorem Alone.refused (hs : Alone s) (hrun : Running s) (hcall : s.calls k = .loadAlive)
    (hstored : ∃ r ∈ s.runs, r.start ≠ .storeAlive) :
    step advance (.start k) s = some (s.reply k (.error (.state "already running"))) := by
  have halive : s.shared.alive = true := by
    rcases hstored with ⟨r, hr, hst⟩
    rcases List.getElem?_of_mem hr with ⟨i, hi⟩
    have hlt := lt_length hi
    have hle := hs.spawned
    have hlive := ((hs.runs.ok i r hi).newest (by omega)).live (hrun.child hr)
    exact hlive.alive hst
  simp [step, startStep, hcall, halive]

theorem exclusive (advance : τ → List UInt8 → τ × List Session.Event) {s : State κ τ}
    (h : (machine κ advance).Reachable Apart s) (hrun : ∀ r ∈ s.runs, r.child = none) :
    Exclusive advance s := by
  have hrun' : Running s := by
    intro c hc
    rcases List.mem_map.1 hc with ⟨r, hr, rfl⟩
    exact hrun r hr
  have hs := reachable_alone h hrun'
  refine ⟨hs.spawned, hs.ok.trans hs.spawned, reachable_answered h, ?_⟩
  intro k hcall hstored
  exact hs.refused hrun' hcall hstored

/-- A session that has not been started, with no callbacks. -/
def fresh : Shared Unit := ⟨false, 0, .default, (), "", []⟩

theorem fresh_init : (machine Bool Session.blank).Init (created fresh) := ⟨fresh, rfl, rfl⟩

/-- The second thread calls while the first one has yet to return. -/
def oneThenOther : List (Label Bool) :=
  .call true :: (List.replicate 6 (.start true) ++ [.call false, .start false])

theorem exclusive_oneThenOther : ∃ s, (machine Bool Session.blank).run (created fresh)
      oneThenOther = some s ∧ s.results = [(false, .error (.state "already running"))] ∧
    Exclusive Session.blank s := by
  have hmeets : (machine Bool Session.blank).Meets Apart (created fresh) oneThenOther := by
    decide +kernel
  have htest : ((machine Bool Session.blank).run (created fresh) oneThenOther).any
      (fun s => s.results = [(false, .error (.state "already running"))] ∧
        ∀ r ∈ s.runs, r.child = none) = true := by
    decide +kernel
  rcases Lts.Machine.exists_reachable (created fresh) _ fresh_init hmeets htest with
    ⟨s, hrun, hreach, hs⟩
  rcases of_decide_eq_true hs with ⟨hres, hchild⟩
  exact ⟨s, hrun, hres, exclusive Session.blank hreach hchild⟩

/-- Both threads read `alive` before either stores it. -/
def bothRead : List (Label Bool) :=
  [.call true, .call false, .start true, .start false] ++
    (List.replicate 9 (.start true) ++ List.replicate 6 (.start false))

theorem race : ¬ ∀ s, (machine Bool Session.blank).Reachable EndsAfterChild s →
    (∀ r ∈ s.runs, r.child = none) → Exclusive Session.blank s := by
  intro hall
  have hmeets : (machine Bool Session.blank).Meets EndsAfterChild (created fresh) bothRead := by
    decide +kernel
  have htest : ((machine Bool Session.blank).run (created fresh) bothRead).any
      (fun s => s.results = [(true, .ok ())] ∧ s.calls false = .storeReader 1 ∧
        s.runs.length = 2 ∧ ∀ r ∈ s.runs, r.child = none) = true := by
    decide +kernel
  rcases Lts.Machine.exists_reachable (created fresh) _ fresh_init hmeets htest with
    ⟨s, -, hreach, hs⟩
  rcases of_decide_eq_true hs with ⟨-, -, hlength, hchild⟩
  have hle := (hall s hreach hchild).spawned
  omega

end Race

end RataShell.Starts
