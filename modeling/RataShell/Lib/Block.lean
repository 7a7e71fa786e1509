import Mathlib.Data.List.Basic

/-!
# Blocks of strings

Strings in a row, each closed by `z`, and the row by one more. A row of no strings is
closed by two, so that every block ends in two.

* `read_write`: a reader that does not know the length finds the strings, and stops.
* `read_single`: it does not stop at a single `z`.
-/

namespace Block

universe u

variable {α : Type u}

/-- What stands in a block. -/
def write (z : α) (es : List (List α)) : List α := es.flatMap (· ++ [z]) ++ [z]

/-- A block of some strings ends in two. -/
theorem suffix_write (z : α) {es : List (List α)} (hne : es ≠ []) :
    [z, z] <:+ write z es := by
  rcases List.eq_nil_or_concat' es with rfl | ⟨es, e, rfl⟩
  · exact absurd rfl hne
  · exact ⟨es.flatMap (· ++ [z]) ++ e, by simp [write]⟩

variable [DecidableEq α]

/-- Reads strings up to an empty one, with the part of a string that has been read. -/
def strings (z : α) (cur : List α) : List α → Option (List (List α) × List α)
  | [] => none
  | a :: as =>
      if a = z then
        if cur = [] then some ([], as)
        else (strings z [] as).map fun p => (cur :: p.1, p.2)
      else strings z (cur ++ [a]) as

/-- Reads a block, and gives what comes behind it. -/
def read (z : α) : List α → Option (List (List α) × List α)
  | a :: b :: as =>
      if a = z then if b = z then some ([], as) else none
      else strings z [] (a :: b :: as)
  | _ => none

theorem strings_append {z : α} {e : List α} (hz : z ∉ e) {cur : List α} (hne : cur ++ e ≠ [])
    (as : List α) :
    strings z cur (e ++ z :: as) = (strings z [] as).map fun p => ((cur ++ e) :: p.1, p.2) := by
  induction e generalizing cur with
  | nil =>
      rw [List.append_nil] at hne ⊢
      rw [List.nil_append, strings, if_pos rfl, if_neg hne]
  | cons a e ih =>
      rw [List.mem_cons, not_or] at hz
      have hrest := @ih hz.2 (cur ++ [a]) (by simp)
      rw [List.cons_append, strings, if_neg (Ne.symm hz.1), hrest, List.append_assoc,
        List.singleton_append]

theorem strings_write {z : α} {es : List (List α)} (hes : ∀ e ∈ es, e ≠ [] ∧ z ∉ e)
    (as : List α) : strings z [] (write z es ++ as) = some (es, as) := by
  induction es with
  | nil => simp [write, strings]
  | cons e es ih =>
      rcases hes e List.mem_cons_self with ⟨hne, hz⟩
      have hcons : write z (e :: es) ++ as = e ++ z :: (write z es ++ as) := by
        simp [write]
      rw [hcons, strings_append hz (by simpa using hne),
        ih fun e he => hes e (List.mem_cons_of_mem _ he)]
      rfl

/-- The strings of a block are read back, whatever comes behind it. -/
theorem read_write {z : α} {es : List (List α)} (hne : es ≠ [])
    (hes : ∀ e ∈ es, e ≠ [] ∧ z ∉ e) (as : List α) :
    read z (write z es ++ as) = some (es, as) := by
  have hstrings := strings_write hes as
  cases es with
  | nil => exact absurd rfl hne
  | cons e es =>
      rcases hes e List.mem_cons_self with ⟨hfirst, hz⟩
      cases e with
      | nil => exact absurd rfl hfirst
      | cons a e =>
          rw [List.mem_cons, not_or] at hz
          have hcons : ∃ b bs, write z ((a :: e) :: es) ++ as = a :: b :: bs := by
            cases e <;> simp [write]
          rcases hcons with ⟨b, bs, hcons⟩
          rw [hcons] at hstrings ⊢
          rw [read, if_neg (Ne.symm hz.1), hstrings]

/-- A single one is no block. -/
theorem read_single (z : α) : read z (write z []) = none := rfl

end Block
