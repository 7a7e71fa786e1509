import Mathlib.Data.List.Basic

/-!
# Consumers that are fed in chunks

A consumer takes an item in a state and gives the next state and what it puts
out. `feed` runs one over a list of items.

* **Incremental consumers** (`Incremental`): the item is itself a list, and
  the cuts between lists do not show. Feeding any chunks is feeding their
  concatenation (`Incremental.feed_flatten`).
* **From single items** (`feed_incremental`): what works item by item is
  incremental.
-/

namespace Feed

universe u v w

variable {σ : Type u} {α : Type v} {β : Type w}

/-- Feed the items in order and collect the output. -/
def feed (f : σ → α → σ × List β) : σ → List α → σ × List β
  | s, [] => (s, [])
  | s, a :: as => ((feed f (f s a).1 as).1, (f s a).2 ++ (feed f (f s a).1 as).2)

variable {f : σ → α → σ × List β}

@[simp] theorem feed_nil (s : σ) : feed f s [] = (s, []) := rfl

@[simp] theorem feed_cons (s : σ) (a : α) (as : List α) :
    feed f s (a :: as) = ((feed f (f s a).1 as).1, (f s a).2 ++ (feed f (f s a).1 as).2) := rfl

theorem feed_append (s : σ) (as bs : List α) :
    feed f s (as ++ bs) =
      ((feed f (feed f s as).1 bs).1, (feed f s as).2 ++ (feed f (feed f s as).1 bs).2) := by
  induction as generalizing s with
  | nil => simp
  | cons a as ih => simp [ih]

/-- Nothing to feed changes nothing, and a chunk may be cut anywhere. -/
structure Incremental (c : σ → List α → σ × List β) : Prop where
  nil : ∀ s, c s [] = (s, [])
  append : ∀ s as bs, c s (as ++ bs) = ((c (c s as).1 bs).1, (c s as).2 ++ (c (c s as).1 bs).2)

/-- A consumer that works item by item is incremental. -/
theorem feed_incremental (f : σ → α → σ × List β) : Incremental (feed f) :=
  ⟨feed_nil, feed_append⟩

/-- The cuts between chunks do not show. -/
theorem Incremental.feed_flatten {c : σ → List α → σ × List β} (hc : Incremental c) (s : σ)
    (chunks : List (List α)) : feed c s chunks = c s chunks.flatten := by
  induction chunks generalizing s with
  | nil => exact (hc.nil s).symm
  | cons as chunks ih => rw [feed_cons, ih, List.flatten_cons, hc.append]

end Feed
