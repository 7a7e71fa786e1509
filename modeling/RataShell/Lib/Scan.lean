import Mathlib.Tactic.Common
import Mathlib.Data.Nat.Basic

/-!
# Repeated search with a restart

A search asks for the next hit from a position, goes on behind that hit at the
next call, and starts again from a home position when a call finds nothing.

1. **`Meets`**: the hits that a search from a position meets before it finds
   nothing.
2. **`Ends`**: the search advances, and clamps behind a hit at the last
   position to that position again.
3. **`again_iff`**: which hits are reported again and again. If nothing is found
   at the last position they are the hits met from home; if something is, the
   search stays on it for ever.
-/

namespace Scan

universe u v

variable {P : Type u} {H : Type v}

/-- The hits that a search from a position meets, one behind the other; `next`
is where it goes on, if anywhere. -/
inductive Meets (find : P → Option H) (next : H → Option P) : P → H → Prop where
  | here {o : P} {h : H} (hfind : find o = some h) : Meets find next o h
  | later {o o' : P} {h h' : H} (hfind : find o = some h) (hnext : next h = some o')
      (hmeets : Meets find next o' h') : Meets find next o h'

/-- A hit that is met is found from somewhere. -/
theorem Meets.exists_find {find : P → Option H} {next : H → Option P} {o : P} {h : H}
    (hmeets : Meets find next o h) : ∃ o', find o' = some h := by
  induction hmeets with
  | here hfind => exact ⟨_, hfind⟩
  | later _ _ _ ih => exact ih

/-- The hits met grow at their end too. -/
theorem Meets.snoc {find : P → Option H} {next : H → Option P} {o o' : P} {h h' : H}
    (hmeets : Meets find next o h) (hnext : next h = some o') (hfind : find o' = some h') :
    Meets find next o h' := by
  induction hmeets with
  | here hfirst => exact .later hfirst hnext (.here hfind)
  | later hfirst hgo _ ih => exact .later hfirst hgo (ih hnext)

/-- A search that goes on behind a hit, always somewhere. -/
structure Scanner (P : Type u) (H : Type v) where
  find : P → Option H
  next : H → P

namespace Scanner

variable (S : Scanner P H) (home : P)

/-- Where the call after one from `o` starts. -/
def after (o : P) : P :=
  match S.find o with
  | some h => S.next h
  | none => home

/-- Where the `k`-th call starts, the first one at `o`. -/
def origin (o : P) : Nat → P
  | 0 => o
  | k + 1 => S.after home (origin o k)

/-- What the `k`-th call reports. -/
def report (o : P) (k : Nat) : Option H := S.find (S.origin home o k)

/-- The hit is reported by infinitely many of the calls. -/
def Again (o : P) (h : H) : Prop := ∀ n, ∃ k, n ≤ k ∧ S.report home o k = some h

/-- The hits that the search meets. -/
def Meets (o : P) (h : H) : Prop := Scan.Meets S.find (fun h => some (S.next h)) o h

variable {S home}

@[simp] theorem origin_zero (o : P) : S.origin home o 0 = o := rfl

theorem origin_succ (o : P) (k : Nat) :
    S.origin home o (k + 1) = S.after home (S.origin home o k) :=
  rfl

theorem after_some {o : P} {h : H} (hfind : S.find o = some h) : S.after home o = S.next h := by
  simp [after, hfind]

theorem after_none {o : P} (hfind : S.find o = none) : S.after home o = home := by
  simp [after, hfind]

theorem origin_add (o : P) (j k : Nat) :
    S.origin home o (j + k) = S.origin home (S.origin home o j) k := by
  induction k with
  | zero => rfl
  | succ k ih => rw [← Nat.add_assoc, origin_succ, origin_succ, ih]

/-- What is true of the origins from some call on is true of them from each
later one. -/
theorem origin_invariant (Inv : P → Prop) (hstep : ∀ o, Inv o → Inv (S.after home o)) {o : P}
    (ho : Inv o) (k : Nat) : Inv (S.origin home o k) := by
  induction k with
  | zero => exact ho
  | succ k ih => exact hstep _ ih

end Scanner

/-- The search keeps to the positions `Ok`, advances towards the last one by a
measure, stays there, and finds what is there from everywhere. -/
structure Ends (S : Scanner P H) (home last : P) (Ok : P → Prop) (μ : P → Nat) : Prop where
  home_ok : Ok home
  next_ok : ∀ o h, Ok o → S.find o = some h → Ok (S.next h)
  advance : ∀ o h, Ok o → S.find o = some h → S.next h = last ∨ μ (S.next h) < μ o
  last_next : ∀ h, S.find last = some h → S.next h = last
  last_found : S.find last ≠ none → ∀ o, Ok o → S.find o ≠ none

namespace Ends

variable {S : Scanner P H} {home last : P} {Ok : P → Prop} {μ : P → Nat}

theorem after_ok (hE : Ends S home last Ok μ) {o : P} (ho : Ok o) : Ok (S.after home o) := by
  cases hfind : S.find o with
  | none =>
      rw [Scanner.after_none hfind]
      exact hE.home_ok
  | some h =>
      rw [Scanner.after_some hfind]
      exact hE.next_ok o h ho hfind

theorem origin_ok (hE : Ends S home last Ok μ) {o : P} (ho : Ok o) (k : Nat) :
    Ok (S.origin home o k) := by
  have hstep : ∀ p, Ok p → Ok (S.after home p) := fun p hp => hE.after_ok hp
  exact Scanner.origin_invariant Ok hstep ho k

/-- From every position the search finds nothing some time, or comes to the last
position. -/
theorem exists_stop (hE : Ends S home last Ok μ) {o : P} (ho : Ok o) :
    ∃ k, S.find (S.origin home o k) = none ∨ S.origin home o k = last := by
  -- each hit lowers the measure, unless it leads to the last position
  induction hm : μ o using Nat.strong_induction_on generalizing o with
  | _ m ih =>
      cases hfind : S.find o with
      | none => exact ⟨0, .inl hfind⟩
      | some h =>
          have hafter : S.after home o = S.next h := Scanner.after_some hfind
          rcases hE.advance o h ho hfind with hlast | hlt
          · refine ⟨1, .inr ?_⟩
            rw [Scanner.origin_succ, Scanner.origin_zero, hafter, hlast]
          · rcases ih _ (hm ▸ hlt) (hE.next_ok o h ho hfind) rfl with ⟨k, hk⟩
            refine ⟨1 + k, ?_⟩
            rw [Scanner.origin_add, Scanner.origin_succ, Scanner.origin_zero, hafter]
            exact hk

/-- With something at the last position, the search ends up there and stays. -/
theorem report_of_last (hE : Ends S home last Ok μ) {x : H} (hx : S.find last = some x) {o : P}
    (ho : Ok o) : ∃ n, ∀ k, n ≤ k → S.report home o k = some x := by
  have hnever : ∀ p, Ok p → S.find p ≠ none := hE.last_found (by simp [hx])
  rcases hE.exists_stop ho with ⟨n, hnone | hlast⟩
  · exact absurd hnone (hnever _ (hE.origin_ok ho n))
  · have hstay : ∀ p, p = last → S.after home p = last := by
      rintro p rfl
      rw [Scanner.after_some hx, hE.last_next x hx]
    refine ⟨n, fun k hk => ?_⟩
    rcases Nat.exists_eq_add_of_le hk with ⟨j, rfl⟩
    have horigin : S.origin home o (n + j) = last := by
      rw [Scanner.origin_add]
      exact Scanner.origin_invariant _ hstay hlast j
    rw [Scanner.report, horigin, hx]

/-- With nothing at the last position, every search ends with nothing found. -/
theorem exists_none (hE : Ends S home last Ok μ) (hlast : S.find last = none) {o : P} (ho : Ok o) :
    ∃ k, S.report home o k = none := by
  rcases hE.exists_stop ho with ⟨k, hk | hk⟩
  · exact ⟨k, hk⟩
  · exact ⟨k, by rw [Scanner.report, hk, hlast]⟩

variable (home) in
/-- A hit that the search meets is reported. -/
theorem exists_report {o : P} {h : H} (hmeets : S.Meets o h) :
    ∃ k, S.report home o k = some h := by
  induction hmeets with
  | here hfind => exact ⟨0, hfind⟩
  | later hfind hnext _ ih =>
      rcases ih with ⟨k, hk⟩
      refine ⟨1 + k, ?_⟩
      rw [Scanner.report, Scanner.origin_add, Scanner.origin_succ, Scanner.origin_zero,
        Scanner.after_some hfind, Option.some.inj hnext]
      exact hk

/-- After a call that finds nothing, only hits met from home are reported. -/
theorem meets_of_report {o : P} {n j : Nat} {h : H} (hnone : S.report home o n = none)
    (hreport : S.report home o (n + 1 + j) = some h) : S.Meets home h := by
  induction j generalizing h with
  | zero =>
      -- the call right after starts from home
      have hhome : S.origin home o (n + 1) = home := by
        rw [Scanner.origin_succ, Scanner.after_none hnone]
      rw [Nat.add_zero, Scanner.report, hhome] at hreport
      exact .here hreport
  | succ j ih =>
      rw [← Nat.add_assoc, Scanner.report, Scanner.origin_succ] at hreport
      cases hprev : S.find (S.origin home o (n + 1 + j)) with
      | none =>
          rw [Scanner.after_none hprev] at hreport
          exact .here hreport
      | some x =>
          rw [Scanner.after_some hprev] at hreport
          exact (ih hprev).snoc rfl hreport

/-- The hits reported again and again. -/
theorem again_iff (hE : Ends S home last Ok μ) {o : P} (ho : Ok o) (h : H) :
    S.Again home o h ↔
      match S.find last with
      | some x => h = x
      | none => S.Meets home h := by
  cases hlast : S.find last with
  | some x =>
      rcases hE.report_of_last hlast ho with ⟨n, hstay⟩
      constructor
      · intro hagain
        rcases hagain n with ⟨k, hk, hreport⟩
        rw [hstay k hk] at hreport
        exact (Option.some.inj hreport).symm
      · rintro rfl m
        exact ⟨max m n, le_max_left m n, hstay _ (le_max_right m n)⟩
  | none =>
      constructor
      · intro hagain
        rcases hE.exists_none hlast ho with ⟨n, hnone⟩
        rcases hagain (n + 1) with ⟨k, hk, hreport⟩
        rcases Nat.exists_eq_add_of_le hk with ⟨j, rfl⟩
        exact meets_of_report hnone hreport
      · intro hmeets n
        -- wait for the next call that finds nothing; the one after it starts from home
        rcases hE.exists_none hlast (hE.origin_ok ho n) with ⟨i, hi⟩
        rcases exists_report home hmeets with ⟨j, hj⟩
        have hhome : S.origin home o (n + i + 1) = home := by
          rw [Scanner.origin_succ, Scanner.origin_add, Scanner.after_none hi]
        refine ⟨n + i + 1 + j, by omega, ?_⟩
        rw [Scanner.report, Scanner.origin_add, hhome]
        exact hj

end Ends

end Scan
