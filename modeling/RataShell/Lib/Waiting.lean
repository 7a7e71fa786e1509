import Mathlib.Logic.Relation
import Mathlib.Logic.Function.Basic
import Mathlib.Order.WellFounded
import RataShell.Lib.Machine

/-!
# Waiting, stuck threads and lock order

Two general results about threads that wait for each other.

1. **Wait graphs**: `Progress waits moves t` says that `t`, or a thread it
   transitively waits for, can move; `Stuck` is its negation. A set of
   motionless threads closed under waiting is stuck (`stuck_of_closed`).
2. **Lock programs**: threads that run programs over non-reentrant mutexes
   and call back into code that may start further programs. `WellLocked` is
   a static check of one program; a system all of whose programs pass it
   holds no lock in a callback (`callback_holds_none`), takes locks in the
   given order only (`acquire_ordered`) and never lock-deadlocks
   (`lock_progress`).
-/

namespace Lts

universe u v

/-! ## Wait graphs -/

section WaitGraph

variable {θ : Type u} (waits : θ → θ → Prop) (moves : θ → Prop)

/-- `t` or a thread it transitively waits for can move. -/
def Progress (t : θ) : Prop := ∃ u, Relation.ReflTransGen waits t u ∧ moves u

/-- Neither `t` nor any thread it transitively waits for can move. -/
def Stuck (t : θ) : Prop := ∀ u, Relation.ReflTransGen waits t u → ¬ moves u

variable {waits moves}

theorem not_stuck_iff_progress {t : θ} : ¬ Stuck waits moves t ↔ Progress waits moves t := by
  constructor
  · intro h
    by_contra hno
    exact h fun u hu hm => hno ⟨u, hu, hm⟩
  · rintro ⟨u, hu, hm⟩ hstuck
    exact hstuck u hu hm

theorem Progress.of_moves {t : θ} (h : moves t) : Progress waits moves t :=
  ⟨t, .refl, h⟩

theorem Progress.of_waits {t u : θ} (h : waits t u) (hu : Progress waits moves u) :
    Progress waits moves t := by
  rcases hu with ⟨w, hw, hm⟩
  exact ⟨w, .head h hw, hm⟩

/-- A set closed under waiting in which nobody can move is stuck. -/
theorem stuck_of_closed {S : θ → Prop} (hclosed : ∀ t u, S t → waits t u → S u)
    (hno : ∀ t, S t → ¬ moves t) {t : θ} (ht : S t) : Stuck waits moves t := by
  intro u hu
  have hS : S u := by
    induction hu with
    | refl => exact ht
    | tail _ hstep ih => exact hclosed _ _ ih hstep
  exact hno u hS

end WaitGraph

/-! ## Lock programs -/

namespace Lock

/-- What a program does that matters to locking. `callback` hands control to
foreign code, which may start further programs on the same thread. -/
inductive Instr (μ : Type u) where
  | acquire (m : μ)
  | release (m : μ)
  | callback
deriving DecidableEq, Repr

/-- Run `body` between acquiring and releasing `m`. -/
def locked {μ : Type u} (m : μ) (body : List (Instr μ)) : List (Instr μ) :=
  .acquire m :: (body ++ [.release m])

section Programs

variable {μ : Type u} [DecidableEq μ] (before : μ → μ → Prop)

/-- The static check: started with the locks `held`, the program acquires a
lock only after locks that come before it, releases only what it holds, holds
nothing in a callback and nothing at its end. -/
def WellLocked : List μ → List (Instr μ) → Prop
  | held, [] => held = []
  | held, .acquire m :: p => (∀ h ∈ held, before h m) ∧ WellLocked (m :: held) p
  | held, .release m :: p => m ∈ held ∧ WellLocked (held.erase m) p
  | held, .callback :: p => held = [] ∧ WellLocked [] p

-- the equations are made here, once, and not by several proofs of the programs at a time
attribute [grind =] WellLocked

variable {before}

theorem WellLocked.append {p q : List (Instr μ)} {held : List μ}
    (hp : WellLocked before held p) (hq : WellLocked before [] q) :
    WellLocked before held (p ++ q) := by
  induction p generalizing held with
  | nil =>
      have hnil : held = [] := hp
      subst hnil
      exact hq
  | cons i p ih =>
      cases i with
      | acquire m => exact ⟨hp.1, ih hp.2⟩
      | release m => exact ⟨hp.1, ih hp.2⟩
      | callback => exact ⟨hp.1, ih hp.2⟩

theorem WellLocked.flatten {ps : List (List (Instr μ))}
    (h : ∀ p ∈ ps, WellLocked before [] p) : WellLocked before [] ps.flatten := by
  induction ps with
  | nil => rfl
  | cons p ps ih =>
      have hps : WellLocked before [] ps.flatten := ih fun q hq => h q (by simp [hq])
      simpa using (h p (by simp)).append hps

end Programs

/-! ## Threads -/

/-- One activation of a program: the locks it holds, what it has still to do,
and whether it is suspended in a callback. -/
structure Frame (μ : Type u) where
  held : List μ
  rest : List (Instr μ)
  inCallback : Bool

/-- The mutexes' holders and every thread's activations, the innermost first.
A thread with no activation runs code outside all programs. -/
structure State (θ : Type v) (μ : Type u) where
  holder : μ → Option θ
  stack : θ → List (Frame μ)

/-- What a thread can do: start a program (in a callback or outside all
programs), execute the next instruction, find no callback registered, or
return from a callback. -/
inductive Act (μ : Type u) where
  | call (p : List (Instr μ))
  | exec
  | skip
  | leave

variable {θ : Type v} {μ : Type u}

namespace State

def setStack [DecidableEq θ] (s : State θ μ) (t : θ) (fs : List (Frame μ)) : State θ μ :=
  { s with stack := Function.update s.stack t fs }

def setHolder [DecidableEq μ] (s : State θ μ) (m : μ) (o : Option θ) : State θ μ :=
  { s with holder := Function.update s.holder m o }

/-- `t` runs foreign code: outside all programs or in a callback. -/
def InHostCode (s : State θ μ) (t : θ) : Prop :=
  ∀ f ∈ (s.stack t).head?, f.inCallback = true

/-- The mutex the next instruction of `t` acquires. -/
def wants (s : State θ μ) (t : θ) : Option μ :=
  match s.stack t with
  | ⟨_, .acquire m :: _, false⟩ :: _ => some m
  | _ => none

/-- `t` waits for the thread that holds the mutex it wants. -/
def waits (s : State θ μ) (t u : θ) : Prop := ∃ m, s.wants t = some m ∧ s.holder m = some u

/-- `t` is not kept back by a mutex. -/
def unblocked (s : State θ μ) (t : θ) : Prop := ¬ ∃ u, s.waits t u

end State

/-- One step of thread `t`. -/
def step [DecidableEq θ] [DecidableEq μ] : θ × Act μ → State θ μ → Option (State θ μ)
  | (t, .call p), s =>
      match s.stack t with
      | [] => some (s.setStack t [⟨[], p, false⟩])
      | ⟨held, rest, true⟩ :: fs =>
          some (s.setStack t (⟨[], p, false⟩ :: ⟨held, rest, true⟩ :: fs))
      | ⟨_, _, false⟩ :: _ => none
  | (t, .exec), s =>
      match s.stack t with
      | ⟨held, .acquire m :: p, false⟩ :: fs =>
          match s.holder m with
          | none => some ((s.setHolder m (some t)).setStack t (⟨m :: held, p, false⟩ :: fs))
          | some _ => none
      | ⟨held, .release m :: p, false⟩ :: fs =>
          some ((s.setHolder m none).setStack t (⟨held.erase m, p, false⟩ :: fs))
      | ⟨held, .callback :: p, false⟩ :: fs => some (s.setStack t (⟨held, p, true⟩ :: fs))
      | ⟨_, [], false⟩ :: fs => some (s.setStack t fs)
      | _ => none
  | (t, .skip), s =>
      match s.stack t with
      | ⟨held, .callback :: p, false⟩ :: fs => some (s.setStack t (⟨held, p, false⟩ :: fs))
      | _ => none
  | (t, .leave), s =>
      match s.stack t with
      | ⟨held, p, true⟩ :: fs => some (s.setStack t (⟨held, p, false⟩ :: fs))
      | _ => none

/-- The machine of all threads: at the start no mutex is held and no program
runs. -/
def machine (θ : Type v) (μ : Type u) [DecidableEq θ] [DecidableEq μ] :
    Machine (State θ μ) (θ × Act μ) where
  Init s := (∀ m, s.holder m = none) ∧ ∀ t, s.stack t = []
  step := step

/-! ## The invariant of the threads -/

/-- The locks held by the innermost of a stack of activations. -/
def topHeld (fs : List (Frame μ)) : List μ := fs.head?.elim [] Frame.held

/-- The locks `t` holds: those of its innermost activation, since the ones
below are in a callback. -/
def State.held (s : State θ μ) (t : θ) : List μ := topHeld (s.stack t)

section Frames

variable (s : State θ μ) (t u : θ) (fs : List (Frame μ)) (m : μ) (o : Option θ)

@[simp] theorem stack_setStack_self [DecidableEq θ] : (s.setStack t fs).stack t = fs := by
  simp [State.setStack]

@[simp] theorem stack_setStack_ne [DecidableEq θ] (h : u ≠ t) :
    (s.setStack t fs).stack u = s.stack u := by
  simp [State.setStack, h]

@[simp] theorem holder_setStack [DecidableEq θ] : (s.setStack t fs).holder = s.holder := rfl

@[simp] theorem stack_setHolder [DecidableEq μ] : (s.setHolder m o).stack = s.stack := rfl

@[simp] theorem holder_setHolder_self [DecidableEq μ] : (s.setHolder m o).holder m = o := by
  simp [State.setHolder]

@[simp] theorem holder_setHolder_ne [DecidableEq μ] {n : μ} (h : n ≠ m) :
    (s.setHolder m o).holder n = s.holder n := by
  simp [State.setHolder, h]

@[simp] theorem held_setStack_self [DecidableEq θ] :
    (s.setStack t fs).held t = topHeld fs := by
  simp [State.held]

@[simp] theorem held_setStack_ne [DecidableEq θ] (h : u ≠ t) :
    (s.setStack t fs).held u = s.held u := by
  simp [State.held, h]

@[simp] theorem held_setHolder [DecidableEq μ] : (s.setHolder m o).held = s.held := rfl

end Frames

variable [DecidableEq μ] (before : μ → μ → Prop)

/-- What holds of the activations of one thread. -/
structure StackOk (fs : List (Frame μ)) : Prop where
  programs : ∀ f ∈ fs, WellLocked before f.held f.rest
  idle : ∀ f ∈ fs, f.inCallback = true → f.held = []
  below : ∀ f ∈ fs.tail, f.inCallback = true
  nodup : ∀ f ∈ fs, f.held.Nodup

/-- Every thread's activations are in order, and the holders are recorded in
the activations. -/
structure Inv (s : State θ μ) : Prop where
  frames : ∀ t, StackOk before (s.stack t)
  holder : ∀ m t, s.holder m = some t ↔ m ∈ s.held t

variable {before}

/-- Replacing the innermost activation keeps the stack in order. -/
theorem StackOk.replace {f g : Frame μ} {fs : List (Frame μ)}
    (h : StackOk before (f :: fs)) (hprog : WellLocked before g.held g.rest)
    (hidle : g.inCallback = true → g.held = []) (hnodup : g.held.Nodup) :
    StackOk before (g :: fs) where
  programs := List.forall_mem_cons.2 ⟨hprog, fun f hf => h.programs f (by simp [hf])⟩
  idle := List.forall_mem_cons.2 ⟨hidle, fun f hf => h.idle f (by simp [hf])⟩
  below := h.below
  nodup := List.forall_mem_cons.2 ⟨hnodup, fun f hf => h.nodup f (by simp [hf])⟩

/-- Starting a program on top of a suspended activation keeps the stack in order. -/
theorem StackOk.push {fs : List (Frame μ)} {p : List (Instr μ)} (h : StackOk before fs)
    (hp : WellLocked before [] p) (hsusp : ∀ f ∈ fs.head?, f.inCallback = true) :
    StackOk before (⟨[], p, false⟩ :: fs) where
  programs := List.forall_mem_cons.2 ⟨hp, h.programs⟩
  idle := List.forall_mem_cons.2 ⟨fun _ => rfl, h.idle⟩
  below := by
    intro g hg
    cases fs with
    | nil => cases hg
    | cons f fs =>
        rcases List.mem_cons.1 hg with rfl | hg
        · exact hsusp _ (by simp)
        · exact h.below g hg
  nodup := List.forall_mem_cons.2 ⟨List.nodup_nil, h.nodup⟩

/-- Ending the innermost activation keeps the stack in order. -/
theorem StackOk.pop {f : Frame μ} {fs : List (Frame μ)} (h : StackOk before (f :: fs)) :
    StackOk before fs where
  programs g hg := h.programs g (by simp [hg])
  idle g hg := h.idle g (by simp [hg])
  below g hg := h.below g (List.mem_of_mem_tail hg)
  nodup g hg := h.nodup g (by simp [hg])

/-- Everything below the innermost activation holds nothing. -/
theorem StackOk.topHeld_tail {f : Frame μ} {fs : List (Frame μ)}
    (h : StackOk before (f :: fs)) : topHeld fs = [] := by
  cases fs with
  | nil => rfl
  | cons g fs => exact h.idle g (by simp) (h.below g (by simp))

variable [DecidableEq θ]

/-- A thread may change its activations as long as it holds the same locks. -/
theorem Inv.setStack {s : State θ μ} {t : θ} {fs : List (Frame μ)} (h : Inv before s)
    (hok : StackOk before fs) (hheld : topHeld fs = s.held t) :
    Inv before (s.setStack t fs) where
  frames u := by
    by_cases hu : u = t
    · subst hu
      simpa using hok
    · simpa [hu] using h.frames u
  holder m u := by
    by_cases hu : u = t
    · subst hu
      simpa [hheld] using h.holder m u
    · simpa [hu] using h.holder m u

/-- Taking a free lock. -/
theorem Inv.acquire {s : State θ μ} {t : θ} {m : μ} {fs : List (Frame μ)} (h : Inv before s)
    (hfree : s.holder m = none) (hok : StackOk before fs)
    (hheld : topHeld fs = m :: s.held t) :
    Inv before ((s.setHolder m (some t)).setStack t fs) where
  frames u := by
    by_cases hu : u = t
    · subst hu
      simpa using hok
    · simpa [hu] using h.frames u
  holder n u := by
    by_cases hu : u = t
    · subst hu
      by_cases hn : n = m
      · subst hn
        simp [hheld]
      · simpa [hn, hheld] using h.holder n u
    · by_cases hn : n = m
      · subst hn
        have hnot : n ∉ s.held u := by
          intro hmem
          rw [← h.holder n u, hfree] at hmem
          cases hmem
        have htu : ¬ t = u := fun e => hu e.symm
        simp [hu, htu, hnot]
      · simpa [hu, hn] using h.holder n u

/-- Giving back a held lock. -/
theorem Inv.release {s : State θ μ} {t : θ} {m : μ} {fs : List (Frame μ)} (h : Inv before s)
    (hmem : m ∈ s.held t) (hnodup : (s.held t).Nodup) (hok : StackOk before fs)
    (hheld : topHeld fs = (s.held t).erase m) :
    Inv before ((s.setHolder m none).setStack t fs) where
  frames u := by
    by_cases hu : u = t
    · subst hu
      simpa using hok
    · simpa [hu] using h.frames u
  holder n u := by
    by_cases hu : u = t
    · subst hu
      by_cases hn : n = m
      · subst hn
        simp [hheld, hnodup.mem_erase_iff]
      · simpa [hn, hheld, List.mem_erase_of_ne hn] using h.holder n u
    · by_cases hn : n = m
      · subst hn
        have hnot : n ∉ s.held u := by
          intro hmemu
          rw [← h.holder n u, (h.holder n t).2 hmem] at hmemu
          exact hu (Option.some.inj hmemu).symm
        simp [hu, hnot]
      · simpa [hu, hn] using h.holder n u

/-! ## Every step keeps it -/

/-- Every program started is well locked. -/
def Disciplined (before : μ → μ → Prop) : StepCond (State θ μ) (θ × Act μ) := fun a _ =>
  ∀ p, a.2 = .call p → WellLocked before [] p

theorem init_inv {s : State θ μ} (h : (machine θ μ).Init s) : Inv before s where
  frames t := by
    rw [h.2 t]
    constructor <;> simp
  holder m t := by
    simp [h.1 m, State.held, h.2 t, topHeld]

variable (hirr : ∀ m, ¬ before m m)

theorem call_inv {t : θ} {p : List (Instr μ)} {s s' : State θ μ} (hp : WellLocked before [] p)
    (h : step (t, .call p) s = some s') (hinv : Inv before s) : Inv before s' := by
  have hst := hinv.frames t
  have hheld : s.held t = topHeld (s.stack t) := rfl
  simp only [step] at h
  split at h <;> rename_i hs
  · cases h
    rw [hs] at hst hheld
    exact hinv.setStack (hst.push hp (by simp)) hheld.symm
  · -- a callback calls: nothing is held under it
    cases h
    rw [hs] at hst hheld
    have hidle := hst.idle _ (List.mem_cons_self) rfl
    exact hinv.setStack (hst.push hp (by simp)) (by rw [hheld]; exact hidle.symm)
  · cases h

include hirr in
theorem exec_inv {t : θ} {s s' : State θ μ} (h : step (t, .exec) s = some s')
    (hinv : Inv before s) : Inv before s' := by
  have hst := hinv.frames t
  have hheld : s.held t = topHeld (s.stack t) := rfl
  simp only [step] at h
  split at h <;> rename_i hs
  · -- acquire: the mutex is free, and comes after every lock held
    rename_i held m p fs
    split at h
    · rename_i hfree
      cases h
      rw [hs] at hst hheld
      have hprog := hst.programs _ (List.mem_cons_self)
      have hnot : m ∉ held := fun hm => hirr m (hprog.1 m hm)
      have hnodup := hst.nodup _ (List.mem_cons_self)
      exact hinv.acquire hfree
        (hst.replace hprog.2 (by simp) (List.nodup_cons.2 ⟨hnot, hnodup⟩))
        (by rw [hheld]; rfl)
    · cases h
  · -- release
    rename_i held m p fs
    cases h
    rw [hs] at hst hheld
    have hprog := hst.programs _ (List.mem_cons_self)
    have hnodup := hst.nodup _ (List.mem_cons_self)
    refine hinv.release (by rw [hheld]; exact hprog.1) (by rw [hheld]; exact hnodup)
      (hst.replace hprog.2 (by simp) (hnodup.erase m)) (by rw [hheld]; rfl)
  · -- callback: nothing is held
    cases h
    rw [hs] at hst hheld
    have hprog := hst.programs _ (List.mem_cons_self)
    have hnodup := hst.nodup _ (List.mem_cons_self)
    refine hinv.setStack (hst.replace ?_ (fun _ => hprog.1) hnodup) (by rw [hheld]; rfl)
    rw [hprog.1]
    exact hprog.2
  · -- end of the program: nothing is held
    cases h
    rw [hs] at hst hheld
    have hprog := hst.programs _ (List.mem_cons_self)
    refine hinv.setStack hst.pop ?_
    rw [hst.topHeld_tail, hheld]
    exact (show _ = ([] : List μ) from hprog).symm
  · cases h

include hirr in
theorem step_inv {a : θ × Act μ} {s s' : State θ μ} (hC : Disciplined before a s)
    (h : step a s = some s') (hinv : Inv before s) : Inv before s' := by
  rcases a with ⟨t, act⟩
  have hst := hinv.frames t
  have hheld : s.held t = topHeld (s.stack t) := rfl
  -- skip and leave end a callback, under which nothing is held
  cases act with
  | call p => exact call_inv (hC p rfl) h hinv
  | exec => exact exec_inv hirr h hinv
  | skip =>
      simp only [step] at h
      split at h <;> rename_i hs
      · cases h
        rw [hs] at hst hheld
        have hprog := hst.programs _ (List.mem_cons_self)
        have hnodup := hst.nodup _ (List.mem_cons_self)
        refine hinv.setStack (hst.replace ?_ (by simp) hnodup) (by rw [hheld]; rfl)
        rw [hprog.1]
        exact hprog.2
      · cases h
  | leave =>
      simp only [step] at h
      split at h <;> rename_i hs
      · cases h
        rw [hs] at hst hheld
        have hprog := hst.programs _ (List.mem_cons_self)
        have hnodup := hst.nodup _ (List.mem_cons_self)
        exact hinv.setStack (hst.replace hprog (by simp) hnodup) (by rw [hheld]; rfl)
      · cases h

include hirr in
theorem reachable_inv {s : State θ μ}
    (h : (machine θ μ).Reachable (Disciplined before) s) : Inv before s :=
  Machine.init_invariant (Inv before) (fun _ => init_inv) (fun _ _ _ hC hs => step_inv hirr hC hs) h

/-! ## The three results -/

include hirr in
/-- A thread that runs foreign code holds no lock. -/
theorem callback_holds_none {s : State θ μ}
    (h : (machine θ μ).Reachable (Disciplined before) s) {t : θ} (hhost : s.InHostCode t)
    (m : μ) : s.holder m ≠ some t := by
  have hinv := reachable_inv hirr h
  have hst := hinv.frames t
  rw [Ne, hinv.holder m t, State.held]
  cases hs : s.stack t with
  | nil => simp [topHeld]
  | cons f fs =>
      have hcb : f.inCallback = true := hhost f (by simp [hs])
      have hnil : f.held = [] := hst.idle f (by simp [hs]) hcb
      simp [topHeld, hnil]

include hirr in
/-- A lock is wanted only while holding locks that come before it. -/
theorem acquire_ordered {s : State θ μ}
    (h : (machine θ μ).Reachable (Disciplined before) s) {t : θ} {m n : μ}
    (hwants : s.wants t = some m) (hholds : s.holder n = some t) : before n m := by
  have hinv := reachable_inv hirr h
  have hst := hinv.frames t
  rw [hinv.holder n t, State.held] at hholds
  unfold State.wants at hwants
  split at hwants
  · rename_i hs
    cases hwants
    rw [hs] at hst hholds
    exact (hst.programs _ (List.mem_cons_self)).1 n hholds
  · cases hwants

include hirr in
/-- No lock deadlock: every thread, or one it transitively waits for, is not
kept back by a mutex. -/
theorem lock_progress (hwf : WellFounded fun m n => before n m) {s : State θ μ}
    (h : (machine θ μ).Reachable (Disciplined before) s) (t : θ) :
    Progress s.waits s.unblocked t := by
  -- a blocked thread ranks by the mutex it wants; the next one wants a later mutex
  have hmain : ∀ m t, s.wants t = some m → Progress s.waits s.unblocked t := by
    intro m
    induction m using hwf.induction with
    | _ m ih =>
        intro t hwants
        by_cases hm : s.unblocked t
        · exact .of_moves hm
        · rcases not_not.1 hm with ⟨u, hu⟩
          refine .of_waits hu ?_
          by_cases hmu : s.unblocked u
          · exact .of_moves hmu
          · rcases not_not.1 hmu with ⟨-, n, hwn, -⟩
            rcases hu with ⟨m', hwm', hhold⟩
            have hmm : m' = m := Option.some.inj (hwm'.symm.trans hwants)
            subst hmm
            exact ih n (acquire_ordered hirr h hwn hhold) u hwn
  by_cases hm : s.unblocked t
  · exact .of_moves hm
  · rcases not_not.1 hm with ⟨-, n, hwn, -⟩
    exact hmain n t hwn

end Lock

end Lts
