import Mathlib.Data.Finset.Basic
import Mathlib.Data.List.Basic

/-!
# Resources and their release

What is open and what has been released, in order.

* `Ledger.Sound`: nothing has been released twice or is still open.
* `Ledger.Sound.releaseAll`: releasing open resources, each once, keeps it.
* `Ledger.Sound.count_releaseAll`: each of these has then been released exactly once.
-/

universe u

/-- Open resources, and the ones released. -/
structure Ledger (ρ : Type u) where
  live : Finset ρ
  released : List ρ
deriving DecidableEq

namespace Ledger

variable {ρ : Type u}

def empty : Ledger ρ where
  live := ∅
  released := []

/-- Nothing has been released twice, and nothing released is open. -/
structure Sound (l : Ledger ρ) : Prop where
  once : l.released.Nodup
  gone : ∀ r ∈ l.released, r ∉ l.live

theorem Sound.empty : (Ledger.empty : Ledger ρ).Sound where
  once := List.nodup_nil
  gone := by simp [Ledger.empty]

variable [DecidableEq ρ]

/-- Some resources are opened. -/
def acquire (rs : Finset ρ) (l : Ledger ρ) : Ledger ρ := { l with live := l.live ∪ rs }

/-- A resource is released. -/
def release (r : ρ) (l : Ledger ρ) : Ledger ρ where
  live := l.live.erase r
  released := l.released ++ [r]

/-- A release that may fail; the resource then stays. -/
def close (ok : Bool) (r : ρ) (l : Ledger ρ) : Ledger ρ := if ok then l.release r else l

/-- Releases in a row. -/
def releaseAll (rs : List ρ) (l : Ledger ρ) : Ledger ρ := rs.foldl (fun l r => l.release r) l

@[simp] theorem mem_acquire {r : ρ} {rs : Finset ρ} {l : Ledger ρ} :
    r ∈ (l.acquire rs).live ↔ r ∈ l.live ∨ r ∈ rs := Finset.mem_union

@[simp] theorem mem_release {r r' : ρ} {l : Ledger ρ} :
    r ∈ (l.release r').live ↔ r ≠ r' ∧ r ∈ l.live := Finset.mem_erase

@[simp] theorem mem_close {ok : Bool} {r r' : ρ} {l : Ledger ρ} :
    r ∈ (l.close ok r').live ↔ (ok = true → r ≠ r') ∧ r ∈ l.live := by
  cases ok <;> simp [close]

theorem released_releaseAll (rs : List ρ) (l : Ledger ρ) :
    (l.releaseAll rs).released = l.released ++ rs := by
  induction rs generalizing l with
  | nil => simp [releaseAll]
  | cons r rs ih =>
      refine (ih (l.release r)).trans ?_
      rw [release, List.append_assoc, List.singleton_append]

theorem mem_releaseAll {r : ρ} {rs : List ρ} {l : Ledger ρ} :
    r ∈ (l.releaseAll rs).live ↔ r ∉ rs ∧ r ∈ l.live := by
  induction rs generalizing l with
  | nil => simp [releaseAll]
  | cons r' rs ih =>
      refine (ih (l := l.release r')).trans ?_
      rw [mem_release, List.mem_cons, not_or, and_left_comm, and_assoc]

/-! ## Each release once -/

@[simp] theorem released_acquire (rs : Finset ρ) (l : Ledger ρ) :
    (l.acquire rs).released = l.released := rfl

@[simp] theorem released_release (r : ρ) (l : Ledger ρ) :
    (l.release r).released = l.released ++ [r] := rfl

theorem mem_released_close {ok : Bool} {r r' : ρ} {l : Ledger ρ} :
    r ∈ (l.close ok r').released ↔ r ∈ l.released ∨ ok = true ∧ r = r' := by
  cases ok <;> simp [close]

/-- Resources that are opened are new. -/
theorem Sound.acquire {l : Ledger ρ} (h : l.Sound) {rs : Finset ρ}
    (hnew : ∀ r ∈ l.released, r ∉ rs) : (l.acquire rs).Sound where
  once := h.once
  gone r hr := by
    rw [mem_acquire, not_or]
    exact ⟨h.gone r hr, hnew r hr⟩

/-- A resource that is released is open. -/
theorem Sound.release {l : Ledger ρ} (h : l.Sound) {r : ρ} (hr : r ∈ l.live) :
    (l.release r).Sound where
  once := by
    refine List.nodup_append.2 ⟨h.once, List.nodup_singleton r, ?_⟩
    rintro a ha b hb rfl
    rw [List.mem_singleton] at hb
    exact h.gone a ha (hb ▸ hr)
  gone a ha := by
    rw [mem_release, not_and]
    intro hne
    rcases List.mem_append.1 ha with hold | hnew
    · exact h.gone a hold
    · exact absurd (List.mem_singleton.1 hnew) hne

theorem Sound.close {l : Ledger ρ} (h : l.Sound) {ok : Bool} {r : ρ} (hr : r ∈ l.live) :
    (l.close ok r).Sound := by
  cases ok with
  | false => exact h
  | true => exact h.release hr

theorem Sound.releaseAll {l : Ledger ρ} (h : l.Sound) {rs : List ρ} (hrs : rs.Nodup)
    (hlive : ∀ r ∈ rs, r ∈ l.live) : (l.releaseAll rs).Sound := by
  induction rs generalizing l with
  | nil => exact h
  | cons r rs ih =>
      rcases List.nodup_cons.1 hrs with ⟨hr, hrest⟩
      refine ih (h.release (hlive r List.mem_cons_self)) hrest ?_
      intro a ha
      refine mem_release.2 ⟨?_, hlive a (List.mem_cons_of_mem r ha)⟩
      rintro rfl
      exact hr ha

/-- Open resources, released in a row, have been released exactly once. -/
theorem Sound.count_releaseAll {l : Ledger ρ} (h : l.Sound) {rs : List ρ} (hrs : rs.Nodup)
    (hlive : ∀ r ∈ rs, r ∈ l.live) {r : ρ} (hr : r ∈ rs) :
    (l.releaseAll rs).released.count r = 1 := by
  refine List.count_eq_one_of_mem (h.releaseAll hrs hlive).once ?_
  rw [released_releaseAll]
  exact List.mem_append_right _ hr

end Ledger
