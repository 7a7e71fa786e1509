import Mathlib.Data.List.Induction
import Mathlib.Tactic.Common

/-!
# Tables of first entries

Values entered under a key each; the first entry under a key stays.

* `table_eq_find`: under a key stands the first of the entries that have it.
* `finds_iff`: each entry is found under its key exactly when no two of them
  share one.
-/

namespace Intern

universe u v

variable {κ : Type u} {α : Type v} [DecidableEq κ] {key : α → κ}

/-- Enters a value under its key, unless that is taken. -/
def enter (key : α → κ) (m : κ → Option α) (a : α) : κ → Option α :=
  match m (key a) with
  | some _ => m
  | none => fun k => if k = key a then some a else m k

/-- The table of the values entered, in their order. -/
def table (key : α → κ) (l : List α) : κ → Option α := l.foldl (enter key) fun _ => none

theorem enter_apply (m : κ → Option α) (a : α) (k : κ) :
    enter key m a k = (m k).or (if key a = k then some a else none) := by
  unfold enter
  by_cases hk : key a = k
  · subst hk
    cases hm : m (key a) with
    | none => simp
    | some b => simp [hm]
  · cases hm : m (key a) with
    | none => simp [hk, Ne.symm hk]
    | some b => simp [hk]

/-- More entries come behind the ones there. -/
theorem table_append (l l' : List α) : table key (l ++ l') = l'.foldl (enter key) (table key l) :=
  List.foldl_append

theorem table_eq_find (l : List α) (k : κ) : table key l k = l.find? fun a => key a = k := by
  -- from the front, an entry of the table is only ever added behind
  induction l using List.reverseRecOn with
  | nil => rfl
  | append_singleton l a ih =>
      rw [table_append, List.foldl_cons, List.foldl_nil, enter_apply, ih, List.find?_append]
      by_cases hk : key a = k <;> simp [hk]

/-- Each entry is found under its key exactly when no two share one. -/
theorem finds_iff {l : List α} :
    (∀ a ∈ l, table key l (key a) = some a) ↔ ∀ a ∈ l, ∀ b ∈ l, key a = key b → a = b := by
  constructor
  · intro hfinds a ha b hb hkey
    have hfound := hfinds a ha
    rw [hkey, hfinds b hb] at hfound
    cases hfound
    rfl
  · intro hinj a ha
    rw [table_eq_find]
    cases hfind : l.find? fun b => key b = key a with
    | none =>
        have hnone := List.find?_eq_none.1 hfind a ha
        simp at hnone
    | some b =>
        have hkey : key b = key a := by simpa using List.find?_some hfind
        rw [hinj b (List.mem_of_find?_eq_some hfind) a ha hkey]

end Intern
