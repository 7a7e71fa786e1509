import Mathlib.Logic.Relation
import Mathlib.Order.WellFounded

/-!
# Labelled machines and their runs

A machine is a set of initial states and a partial step function per label;
`none` means that the label is not enabled. The rules every development over
such machines needs are proved here once:

1. **Conditional reachability**: `Steps C` and `Reachable C` follow only the
   steps whose label and pre-state meet `C`, so an assumption about the
   environment and a condition under which a result holds are both spelled as
   a `C` (`init_invariant`, `steps_invariant`, `Reachable.mono`, `Reachable.map`).
2. **Executable runs**: `run` folds a list of labels, and every run it
   completes is a run of such steps (`steps_of_meets`).
3. **Conditions along a run**: `Along P` (P in every state a run visits) and
   `Meets C` (C at every step it takes), with the rules that make them
   equivalent when one step makes them so (`along_of_step`, `along_iff_meets_of`,
   `along_iff_meets`).
4. **Quiescence**: where a class of labels strictly decreases a well-founded
   measure, a state in which none of them is enabled can be reached
   (`exists_quiescent`), and they never go on for ever (`not_infinite`).
-/

namespace Lts

universe u v w x

/-- A labelled machine: initial states and a partial step for each label. -/
structure Machine (σ : Type u) (α : Type v) where
  Init : σ → Prop
  step : α → σ → Option σ

variable {σ : Type u} {α : Type v}

/-- A condition on a step: on its label and on the state before it. -/
abbrev StepCond (σ : Type u) (α : Type v) := α → σ → Prop

namespace Machine

variable (M : Machine σ α)

/-- One step that meets `C`. -/
def Next (C : StepCond σ α) (s s' : σ) : Prop :=
  ∃ a, C a s ∧ M.step a s = some s'

/-- Any number of steps that meet `C`. -/
def Steps (C : StepCond σ α) : σ → σ → Prop := Relation.ReflTransGen (M.Next C)

/-- Reachable from an initial state by steps that meet `C`. -/
def Reachable (C : StepCond σ α) (s : σ) : Prop := ∃ s₀, M.Init s₀ ∧ M.Steps C s₀ s

variable {M}

/-! ## Reachability -/

theorem Reachable.init {C : StepCond σ α} {s : σ} (h : M.Init s) : M.Reachable C s :=
  ⟨s, h, .refl⟩

theorem Reachable.trans {C : StepCond σ α} {s s' : σ} (h : M.Reachable C s)
    (h' : M.Steps C s s') : M.Reachable C s' := by
  rcases h with ⟨s₀, hinit, hsteps⟩
  exact ⟨s₀, hinit, hsteps.trans h'⟩

theorem Steps.single {C : StepCond σ α} {a : α} {s s' : σ} (hC : C a s)
    (h : M.step a s = some s') : M.Steps C s s' :=
  Relation.ReflTransGen.single ⟨a, hC, h⟩

theorem Steps.mono {C D : StepCond σ α} (hCD : ∀ a s, C a s → D a s) {s s' : σ}
    (h : M.Steps C s s') : M.Steps D s s' := by
  have hle : M.Next C ≤ M.Next D := by
    rintro s s' ⟨a, hC, hs⟩
    exact ⟨a, hCD a s hC, hs⟩
  exact Relation.ReflTransGen.mono hle s s' h

theorem Reachable.mono {C D : StepCond σ α} (hCD : ∀ a s, C a s → D a s) {s : σ}
    (h : M.Reachable C s) : M.Reachable D s := by
  rcases h with ⟨s₀, hinit, hsteps⟩
  exact ⟨s₀, hinit, hsteps.mono hCD⟩

/-- Where `f` takes every step of `M` that meets `C` to one of `N` that meets `D`, or to none,
it takes what `M` reaches to what `N` reaches. -/
theorem Reachable.map {τ : Type w} {β : Type x} {N : Machine τ β} {C : StepCond σ α}
    {D : StepCond τ β} (f : σ → τ) (hinit : ∀ s, M.Init s → N.Init (f s))
    (hstep : ∀ a s s', C a s → M.step a s = some s' →
      f s' = f s ∨ ∃ b, D b (f s) ∧ N.step b (f s) = some (f s'))
    {s : σ} (h : M.Reachable C s) : N.Reachable D (f s) := by
  have hle : M.Next C ≤ Function.onFun (N.Steps D) f := by
    rintro s s' ⟨a, hC, hs⟩
    rcases hstep a s s' hC hs with heq | ⟨b, hD, hb⟩
    · show N.Steps D (f s) (f s')
      rw [heq]
      exact .refl
    · exact Steps.single hD hb
  rcases h with ⟨s₀, hs₀, hsteps⟩
  exact ⟨f s₀, hinit s₀ hs₀, Relation.ReflTransGen.lift' f hle s₀ s hsteps⟩

/-- Where every step of `M` that meets `C` is one of `N` that meets `D`, so is
what they reach. -/
theorem Reachable.simulate {β : Type w} {N : Machine σ β} {C : StepCond σ α} {D : StepCond σ β}
    (hinit : ∀ s, M.Init s → N.Init s)
    (hstep : ∀ a s s', C a s → M.step a s = some s' → ∃ b, D b s ∧ N.step b s = some s')
    {s : σ} (h : M.Reachable C s) : N.Reachable D s :=
  h.map id hinit fun a s s' hC hs => .inr (hstep a s s' hC hs)

/-- What one step that meets `C` keeps, any number of them keep. -/
theorem steps_invariant (Inv : σ → Prop) {C : StepCond σ α}
    (hstep : ∀ a s s', C a s → M.step a s = some s' → Inv s → Inv s')
    {s s' : σ} (h : M.Steps C s s') (hs : Inv s) : Inv s' := by
  induction h with
  | refl => exact hs
  | tail _ hnext ih =>
      rcases hnext with ⟨a, hC, ha⟩
      exact hstep a _ _ hC ha ih

/-- Inductive invariance over the steps that meet `C`. -/
theorem init_invariant (Inv : σ → Prop) {C : StepCond σ α}
    (hinit : ∀ s, M.Init s → Inv s)
    (hstep : ∀ a s s', C a s → M.step a s = some s' → Inv s → Inv s')
    {s : σ} (h : M.Reachable C s) : Inv s := by
  rcases h with ⟨s₀, hs₀, hsteps⟩
  exact steps_invariant Inv hstep hsteps (hinit s₀ hs₀)

/-! ## Executable runs -/

variable (M) in
/-- Take the steps of a list of labels in order; `none` if one is not enabled. -/
def run : σ → List α → Option σ
  | s, [] => some s
  | s, a :: as => (M.step a s).bind fun s' => run s' as

@[simp] theorem run_nil (s : σ) : M.run s [] = some s := rfl

theorem run_cons (s : σ) (a : α) (as : List α) :
    M.run s (a :: as) = (M.step a s).bind fun s' => M.run s' as := rfl

/-! ## Conditions along a run -/

variable (M) in
/-- `P` holds in every state the run visits, the first one included. -/
def Along (P : σ → Prop) : σ → List α → Prop
  | s, [] => P s
  | s, a :: as => P s ∧ ∀ s', M.step a s = some s' → Along P s' as

variable (M) in
/-- `C` holds of every step the run takes. -/
def Meets (C : StepCond σ α) : σ → List α → Prop
  | _, [] => True
  | s, a :: as => ∀ s', M.step a s = some s' → C a s ∧ Meets C s' as

/-- What every step keeps holds all along a run. -/
theorem along_of_step {P : σ → Prop} (hstep : ∀ a s s', M.step a s = some s' → P s → P s')
    (as : List α) {s : σ} (hs : P s) : M.Along P s as := by
  induction as generalizing s with
  | nil => exact hs
  | cons a as ih => exact ⟨hs, fun s' hs' => ih (hstep a s s' hs' hs)⟩

instance decidableMeets {C : StepCond σ α} [∀ a s, Decidable (C a s)] :
    ∀ (s : σ) (as : List α), Decidable (M.Meets C s as)
  | _, [] => isTrue trivial
  | s, a :: as =>
      match h : M.step a s with
      | none => isTrue fun s' hs' => by rw [h] at hs'; cases hs'
      | some t =>
          have : Decidable (M.Meets C t as) := decidableMeets t as
          decidable_of_iff (C a s ∧ M.Meets C t as)
            ⟨fun hC s' hs' => by rw [h] at hs'; cases hs'; exact hC, fun hM => hM t h⟩

/-- A completed run whose steps meet `C` is a run of such steps. -/
theorem steps_of_meets {C : StepCond σ α} {s s' : σ} {as : List α}
    (hmeets : M.Meets C s as) (h : M.run s as = some s') : M.Steps C s s' := by
  induction as generalizing s with
  | nil =>
      have hs : s = s' := by simpa using h
      subst hs
      exact .refl
  | cons a as ih =>
      rw [run_cons, Option.bind_eq_some_iff] at h
      rcases h with ⟨t, hst, hrun⟩
      rcases hmeets t hst with ⟨hC, hrest⟩
      have hhead : M.Steps C s t := Steps.single hC hst
      exact hhead.trans (ih hrest hrun)

theorem meets_true (as : List α) (s : σ) : M.Meets (fun _ _ => True) s as := by
  induction as generalizing s with
  | nil => trivial
  | cons a as ih => exact fun s' _ => ⟨trivial, ih s'⟩

/-- A completed run is a run of steps. -/
theorem steps_of_run {s s' : σ} {as : List α} (h : M.run s as = some s') :
    M.Steps (fun _ _ => True) s s' :=
  steps_of_meets (meets_true as s) h

/-- A completed run whose steps meet `C` ends in a state with what a test finds
of it. -/
theorem exists_steps {C : StepCond σ α} (s₀ : σ) (as : List α) {P : σ → Bool}
    (hmeets : M.Meets C s₀ as) (htest : (M.run s₀ as).any P = true) :
    ∃ s, M.run s₀ as = some s ∧ M.Steps C s₀ s ∧ P s = true := by
  cases hrun : M.run s₀ as with
  | none => simp [hrun] at htest
  | some s => exact ⟨s, rfl, steps_of_meets hmeets hrun, by simpa [hrun] using htest⟩

theorem exists_reachable {C : StepCond σ α} (s₀ : σ) (as : List α) {P : σ → Bool}
    (hinit : M.Init s₀) (hmeets : M.Meets C s₀ as) (htest : (M.run s₀ as).any P = true) :
    ∃ s, M.run s₀ as = some s ∧ M.Reachable C s ∧ P s = true := by
  rcases exists_steps s₀ as hmeets htest with ⟨s, hrun, hsteps, hs⟩
  exact ⟨s, hrun, ⟨s₀, hinit, hsteps⟩, hs⟩

/-- Where `J` is kept by the steps that meet `C`, and gives `P`, and a step from a
`J`-state into a `P`-state meets `C`, a run keeps `P` exactly when all its steps
meet `C`. -/
theorem along_iff_meets_of {J P : σ → Prop} {C : StepCond σ α} (hJP : ∀ s, J s → P s)
    (hkeep : ∀ a s s', M.step a s = some s' → J s → C a s → J s')
    (hmeet : ∀ a s s', M.step a s = some s' → J s → P s' → C a s)
    (as : List α) {s : σ} (hJ : J s) :
    M.Along P s as ↔ M.Meets C s as := by
  induction as generalizing s with
  | nil => exact ⟨fun _ => trivial, fun _ => hJP s hJ⟩
  | cons a as ih =>
      constructor
      · rintro ⟨-, halong⟩ s' hs'
        have hP' : P s' := by
          have h := halong s' hs'
          cases as with
          | nil => exact h
          | cons b bs => exact h.1
        have hC := hmeet a s s' hs' hJ hP'
        exact ⟨hC, (ih (hkeep a s s' hs' hJ hC)).1 (halong s' hs')⟩
      · intro hmeets
        refine ⟨hJP s hJ, fun s' hs' => ?_⟩
        rcases hmeets s' hs' with ⟨hC, hrest⟩
        exact (ih (hkeep a s s' hs' hJ hC)).2 hrest

/-- Where, among the states of an invariant `I`, a step from a `P`-state ends
in a `P`-state exactly when it meets `C`, a run keeps `P` exactly when all its
steps meet `C`. -/
theorem along_iff_meets {I P : σ → Prop} {C : StepCond σ α}
    (hinv : ∀ a s s', M.step a s = some s' → I s → I s')
    (hiff : ∀ a s s', M.step a s = some s' → I s → P s → (P s' ↔ C a s))
    (as : List α) {s : σ} (hI : I s) (hP : P s) :
    M.Along P s as ↔ M.Meets C s as := by
  refine along_iff_meets_of (J := fun s => I s ∧ P s) (fun _ h => h.2) ?_ ?_ as ⟨hI, hP⟩
  · rintro a s s' hstep ⟨hIs, hPs⟩ hC
    exact ⟨hinv a s s' hstep hIs, (hiff a s s' hstep hIs hPs).2 hC⟩
  · rintro a s s' hstep ⟨hIs, hPs⟩ hP'
    exact (hiff a s s' hstep hIs hPs).1 hP'

/-! ## Quiescence -/

/-- If every enabled label of the class `T` decreases a well-founded measure
and keeps `I`, then steps of `T` lead to a state where none of them is
enabled. -/
theorem exists_quiescent {β : Type w} {r : β → β → Prop} (hwf : WellFounded r)
    (μ : σ → β) {T : α → Prop} {I : σ → Prop}
    (hdec : ∀ a s s', T a → M.step a s = some s' → I s → I s' ∧ r (μ s') (μ s))
    {s : σ} (hI : I s) :
    ∃ s', M.Steps (fun a _ => T a) s s' ∧ I s' ∧ ∀ a, T a → M.step a s' = none := by
  induction hb : μ s using hwf.induction generalizing s with
  | _ b ih =>
      by_cases hq : ∀ a, T a → M.step a s = none
      · exact ⟨s, .refl, hI, hq⟩
      · push Not at hq
        rcases hq with ⟨a, hT, hne⟩
        rcases Option.ne_none_iff_exists'.1 hne with ⟨t, ht⟩
        rcases hdec a s t hT ht hI with ⟨hIt, hlt⟩
        rw [hb] at hlt
        rcases ih (μ t) hlt hIt rfl with ⟨s', hsteps, hI', hquiet⟩
        have hhead : M.Steps (fun a _ => T a) s t := Steps.single hT ht
        exact ⟨s', hhead.trans hsteps, hI', hquiet⟩

/-- Where every step of the class `T` decreases a well-founded measure and keeps `I`,
there is no infinite run of such steps. -/
theorem not_infinite {β : Type w} {r : β → β → Prop} (hwf : WellFounded r) (μ : σ → β)
    {T : α → Prop} {I : σ → Prop}
    (hdec : ∀ a s s', T a → M.step a s = some s' → I s → I s' ∧ r (μ s') (μ s))
    (run : Nat → σ) (hI : I (run 0)) :
    ¬ ∀ n, ∃ a, T a ∧ M.step a (run n) = some (run (n + 1)) := by
  intro hrun
  have hkeep : ∀ n, I (run n) := by
    intro n
    induction n with
    | zero => exact hI
    | succ n ih =>
        rcases hrun n with ⟨a, hT, ha⟩
        exact (hdec a _ _ hT ha ih).1
  have hno : ∀ b n, μ (run n) ≠ b := by
    intro b
    induction b using hwf.induction with
    | _ b ih =>
        rintro n rfl
        rcases hrun n with ⟨a, hT, ha⟩
        exact ih _ (hdec a _ _ hT ha (hkeep n)).2 (n + 1) rfl
  exact hno _ 0 rfl

end Machine

end Lts
