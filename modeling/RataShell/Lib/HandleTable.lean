import Mathlib.Data.List.Basic
import Mathlib.Logic.Function.Basic

/-!
# Handles of a process

A table of the open handles, in which the number of a closed handle may be given out
again. A part of the process has handles of its own, each under a number that it keeps;
the rest of the process opens and closes others.

* `Owned`: the handles of the part are open under their numbers exactly while it holds
  them.
* `Owned.closeAll`, `Owned.openOther`, `Owned.closeOther`: what keeps it so.
* `Owned.closes_own`: of held handles that are closed in a row each one is still open, and
  is the one that is meant, when its turn comes.
-/

universe u v

namespace HandleTable

/-- An open handle: one of the part's own, or another. -/
inductive Entry (κ : Type u) where
  | ours (k : κ)
  | other
deriving DecidableEq, Repr

/-- The open handles by their numbers. -/
abbrev Table (κ : Type u) (ν : Type v) := ν → Option (Entry κ)

variable {κ : Type u} {ν : Type v} [DecidableEq ν]

/-- The handle with a number is closed. -/
def close (n : ν) (t : Table κ ν) : Table κ ν := Function.update t n none

/-- Handles are closed in a row, each by the number that the part has kept. -/
def closeAll (number : κ → ν) (ks : List κ) (t : Table κ ν) : Table κ ν :=
  ks.foldl (fun t k => close (number k) t) t

/-- A number is given out. -/
def openOther (n : ν) (t : Table κ ν) : Option (Table κ ν) :=
  if t n = none then some (Function.update t n (some .other)) else none

/-- The rest of the process closes a handle of its own. -/
def closeOther [DecidableEq κ] (n : ν) (t : Table κ ν) : Option (Table κ ν) :=
  if t n = some .other then some (close n t) else none

/-- The part's handles are open under their numbers exactly where it holds them. -/
def Owned (number : κ → ν) (held : κ → Prop) (t : Table κ ν) : Prop :=
  ∀ n k, t n = some (.ours k) ↔ held k ∧ n = number k

namespace Owned

variable {number : κ → ν} {held held' : κ → Prop} {t t' : Table κ ν}

omit [DecidableEq ν] in
theorem open_of_held (h : Owned number held t) {k : κ} (hk : held k) :
    t (number k) = some (.ours k) :=
  (h _ _).2 ⟨hk, rfl⟩

omit [DecidableEq ν] in
theorem congr (h : Owned number held t) (hheld : ∀ k, held k ↔ held' k) :
    Owned number held' t := by
  intro n k
  rw [h n k, hheld]

omit [DecidableEq ν] in
/-- Two handles that are held have different numbers. -/
theorem inj (h : Owned number held t) {j k : κ} (hj : held j) (hk : held k)
    (hnumber : number j = number k) : j = k := by
  have hopen := h.open_of_held hj
  rw [hnumber, h.open_of_held hk] at hopen
  cases hopen
  rfl

theorem close (h : Owned number held t) {k : κ} (hk : held k) :
    Owned number (fun j => held j ∧ j ≠ k) (HandleTable.close (number k) t) := by
  intro n j
  by_cases hn : n = number k
  · subst hn
    rw [HandleTable.close, Function.update_self]
    constructor
    · intro hnone
      cases hnone
    · rintro ⟨⟨hj, hne⟩, hnumber⟩
      exact absurd (h.inj hj hk hnumber.symm) hne
  · rw [HandleTable.close, Function.update_of_ne hn, h n j]
    constructor
    · rintro ⟨hj, rfl⟩
      exact ⟨⟨hj, fun hjk => hn (hjk ▸ rfl)⟩, rfl⟩
    · rintro ⟨⟨hj, -⟩, hnumber⟩
      exact ⟨hj, hnumber⟩

theorem closeAll {ks : List κ} (h : Owned number held t) (hnodup : ks.Nodup)
    (hks : ∀ k ∈ ks, held k) :
    Owned number (fun j => held j ∧ j ∉ ks) (HandleTable.closeAll number ks t) := by
  induction ks generalizing held t with
  | nil => exact h.congr (by simp)
  | cons k ks ih =>
      rcases List.nodup_cons.1 hnodup with ⟨hk, hrest⟩
      have hclosed := h.close (hks k List.mem_cons_self)
      have hheld : ∀ j ∈ ks, held j ∧ j ≠ k := by
        intro j hj
        refine ⟨hks j (List.mem_cons_of_mem k hj), ?_⟩
        rintro rfl
        exact hk hj
      refine (ih hclosed hrest hheld).congr fun j => ?_
      rw [List.mem_cons, not_or, and_assoc]

/-- Each of the handles is still open when its turn comes, and no other has its number. -/
theorem closes_own {ks : List κ} (h : Owned number held t) (hnodup : ks.Nodup)
    (hks : ∀ k ∈ ks, held k) {before after : List κ} {k : κ} (heq : ks = before ++ k :: after) :
    HandleTable.closeAll number before t (number k) = some (.ours k) := by
  subst heq
  have hbefore := List.nodup_append.1 hnodup
  refine (h.closeAll hbefore.1 fun j hj => hks j (by simp [hj])).open_of_held
    ⟨hks k (by simp), fun hk => ?_⟩
  exact hbefore.2.2 k hk k List.mem_cons_self rfl

theorem openOther (h : Owned number held t) {n : ν} (hopen : HandleTable.openOther n t = some t') :
    Owned number held t' := by
  unfold HandleTable.openOther at hopen
  split at hopen
  · rename_i hfree
    cases hopen
    intro m k
    by_cases hm : m = n
    · subst hm
      rw [Function.update_self, ← h m k, hfree]
      simp
    · rw [Function.update_of_ne hm, h m k]
  · cases hopen

theorem closeOther [DecidableEq κ] (h : Owned number held t) {n : ν}
    (hclose : HandleTable.closeOther n t = some t') : Owned number held t' := by
  unfold HandleTable.closeOther at hclose
  split at hclose
  · rename_i hother
    cases hclose
    intro m k
    by_cases hm : m = n
    · subst hm
      rw [HandleTable.close, Function.update_self, ← h m k, hother]
      simp
    · rw [HandleTable.close, Function.update_of_ne hm, h m k]
  · cases hclose

end Owned

end HandleTable
