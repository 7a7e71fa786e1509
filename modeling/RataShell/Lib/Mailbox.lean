import Mathlib.Data.List.Basic
import Mathlib.Tactic.Common

/-!
# A mailbox of one slot

Every `put` takes the place of what is in the slot, every `take` empties it. What is
taken is then a part of what was put, in order and each item at most once, and an empty
slot means that the item put last is the one taken last (`Sound`).
-/

namespace Mailbox

universe u

/-- The slot, and what was put into it and taken from it so far. -/
structure Slot (α : Type u) where
  pending : Option α
  put : List α
  taken : List α

namespace Slot

variable {α : Type u}

def empty : Slot α := ⟨none, [], []⟩

def store (m : Slot α) (a : α) : Slot α := { m with pending := some a, put := m.put ++ [a] }

def take (m : Slot α) : Slot α :=
  { m with pending := none, taken := m.taken ++ m.pending.toList }

/-- Without an item that waits, the last one put has been taken; one that waits is the
last one put, and has not been taken. -/
structure Sound (m : Slot α) : Prop where
  drained : m.pending = none → m.taken.Sublist m.put ∧ m.taken.getLast? = m.put.getLast?
  waiting : ∀ a, m.pending = some a → ∃ earlier, m.put = earlier ++ [a] ∧
    m.taken.Sublist earlier

variable {m : Slot α}

theorem Sound.sublist (h : m.Sound) : m.taken.Sublist m.put := by
  cases hpending : m.pending with
  | none => exact (h.drained hpending).1
  | some a =>
      rcases h.waiting a hpending with ⟨earlier, hput, htaken⟩
      rw [hput]
      exact htaken.trans (List.sublist_append_left earlier [a])

theorem empty_sound : (empty : Slot α).Sound where
  drained _ := ⟨List.Sublist.refl [], rfl⟩
  waiting _ h := by cases h

theorem Sound.store (h : m.Sound) (a : α) : (m.store a).Sound where
  drained hnone := by cases hnone
  waiting b hb := by
    cases hb
    exact ⟨m.put, rfl, h.sublist⟩

theorem Sound.take (h : m.Sound) : m.take.Sound where
  drained _ := by
    cases hpending : m.pending with
    | none => simpa [Slot.take, hpending] using h.drained hpending
    | some a =>
        rcases h.waiting a hpending with ⟨earlier, hput, htaken⟩
        simp only [Slot.take, hpending, hput, Option.toList_some]
        exact ⟨htaken.append (List.Sublist.refl [a]), by simp⟩
  waiting _ hb := by cases hb

end Slot

end Mailbox
