import Mathlib.Data.List.Basic

/-!
# Readers of a stream

A reader takes one word off the front of a stream and tells what it stands for. It may
look beyond the word, so that what it takes depends on what follows.

1. **`read`**: the words of a whole stream, one after the other.
2. **`read_append`**: a word that is taken where it stands at the front is the first one
   that is read.
3. **`merge`**: two words that are taken as one wherever they meet; `merge_eq_self_iff`
   tells the sequences that this leaves alone.
-/

namespace Reader

universe u v

variable {α : Type u} {β : Type v}

/-- What stands at the front, and the rest. -/
abbrev Next (α : Type u) (β : Type v) := List α → Option (β × List α)

/-- At most `fuel` words. -/
def readWithin (next : Next α β) : Nat → List α → Option (List β)
  | _, [] => some []
  | 0, _ :: _ => none
  | fuel + 1, a :: l =>
      (next (a :: l)).bind fun p => (readWithin next fuel p.2).map (p.1 :: ·)

/-- The whole stream: as many words as it has items. -/
def read (next : Next α β) (l : List α) : Option (List β) := readWithin next l.length l

variable {next : Next α β}

@[simp] theorem read_nil : read next [] = some [] := rfl

theorem readWithin_mono {fuel fuel' : Nat} (hle : fuel ≤ fuel') {l : List α} {bs : List β}
    (h : readWithin next fuel l = some bs) : readWithin next fuel' l = some bs := by
  induction fuel generalizing fuel' l bs with
  | zero =>
      cases l with
      | nil => cases fuel' <;> exact h
      | cons a l => cases h
  | succ fuel ih =>
      cases l with
      | nil => cases fuel' <;> exact h
      | cons a l =>
          cases fuel' with
          | zero => omega
          | succ fuel' =>
              simp only [readWithin, Option.bind_eq_some_iff, Option.map_eq_some_iff] at h ⊢
              rcases h with ⟨p, hp, bs, hread, hbs⟩
              exact ⟨p, hp, bs, ih (Nat.le_of_succ_le_succ hle) hread, hbs⟩

/-- A word at the front, and then the rest. -/
theorem read_append {w l : List α} {b : β} {bs : List β} (hw : w ≠ [])
    (hnext : next (w ++ l) = some (b, l)) (h : read next l = some bs) :
    read next (w ++ l) = some (b :: bs) := by
  cases w with
  | nil => exact absurd rfl hw
  | cons a w =>
      have hle : l.length ≤ (w ++ l).length := by simp
      have hrest := readWithin_mono hle h
      rw [List.cons_append] at hnext ⊢
      simp only [read, List.length_cons, readWithin, hnext, Option.bind_some, hrest,
        Option.map_some]

/-! ## Words that run together -/

section Merge

variable [DecidableEq β]

/-- `a` and a `b` behind it are taken as `c`. -/
def merge (a b c : β) : List β → List β
  | [] => []
  | [x] => [x]
  | x :: y :: l => if x = a ∧ y = b then c :: merge a b c l else x :: merge a b c (y :: l)

-- the equations are made here, once, and not by several of the proofs below at a time
attribute [grind =] merge

variable {a b c : β}

theorem merge_cons_of_ne {x : β} (hx : x ≠ a) (l : List β) :
    merge a b c (x :: l) = x :: merge a b c l := by
  cases l with
  | nil => rfl
  | cons y l => rw [merge, if_neg fun h => hx h.1]

theorem merge_cons_of_head {x : β} {l : List β} (hl : l.head? ≠ some b) :
    merge a b c (x :: l) = x :: merge a b c l := by
  cases l with
  | nil => rfl
  | cons y l => rw [merge, if_neg fun h => hl (by rw [h.2]; rfl)]

@[simp] theorem merge_pair (l : List β) : merge a b c (a :: b :: l) = c :: merge a b c l := by
  simp [merge]

theorem length_merge_le (l : List β) : (merge a b c l).length ≤ l.length := by
  fun_induction merge a b c l with
  | case1 => exact Nat.le_refl 0
  | case2 => exact Nat.le_refl 1
  | case3 x y l hpair ih =>
      simp only [List.length_cons]
      omega
  | case4 x y l hpair ih =>
      simp only [List.length_cons] at ih ⊢
      omega

/-- No two words run together where `b` stands nowhere behind `a`. -/
theorem merge_eq_self_iff (l : List β) : merge a b c l = l ↔ ¬[a, b] <:+: l := by
  fun_induction merge a b c l with
  | case1 => simp
  | case2 x =>
      refine iff_of_true rfl fun h => ?_
      have hle := h.length_le
      simp at hle
  | case3 x y l hpair ih =>
      rcases hpair with ⟨rfl, rfl⟩
      refine iff_of_false ?_ ?_
      · -- one word fewer
        intro heq
        have hlength := congrArg List.length heq
        have hle := length_merge_le (a := x) (b := y) (c := c) l
        simp only [List.length_cons] at hlength
        omega
      · rw [not_not]
        exact ⟨[], l, by simp⟩
  | case4 x y l hpair ih =>
      have hhead : [a, b] <+: x :: y :: l ↔ a = x ∧ b = y := by
        simp [List.cons_prefix_cons]
      have hother : ¬(a = x ∧ b = y) := fun h => hpair ⟨h.1.symm, h.2.symm⟩
      rw [List.infix_cons_iff, hhead, or_iff_right hother, ← ih]
      simp

end Merge

end Reader
