import Mathlib.Tactic.Common
import RataShell.Term.Alacritty

/-!
# Points of the grid

The points of history and screen in the order of reading, with the next and the
previous one and their numbers.

* `LawfulSearch`: what the code relies on in a search.
* `Nearest`: the searches of alacritty return the nearest match.
-/

namespace RataShell.Term

variable {T R : Type}

/-! ## Points of the grid -/

namespace Grid

variable (g : Grid)

/-- The point is in the history or on the screen. -/
def Has (p : Point) : Prop :=
  -(g.historySize : Int) ≤ p.line ∧ p.line < g.screenLines ∧ p.column < g.columns

instance (p : Point) : Decidable (g.Has p) := inferInstanceAs (Decidable (_ ∧ _ ∧ _))

def first : Point := ⟨-(g.historySize : Int), 0⟩

def last : Point := ⟨g.screenLines - 1, g.columns - 1⟩

/-- The next point in the order of reading; behind the last one is itself. -/
def succ (p : Point) : Point :=
  if p = g.last then p
  else if p.column + 1 < g.columns then ⟨p.line, p.column + 1⟩
  else ⟨p.line + 1, 0⟩

/-- The previous point in the order of reading; before the first one is itself. -/
def pred (p : Point) : Point :=
  if p = g.first then p
  else if p.column = 0 then ⟨p.line - 1, g.columns - 1⟩
  else ⟨p.line, p.column - 1⟩

/-- The number of a point in the order of reading. -/
def rank (p : Point) : Nat := (p.line + g.historySize).toNat * g.columns + p.column

end Grid

/-- The order of reading. -/
instance : LE Point := ⟨fun p q => p.line < q.line ∨ p.line = q.line ∧ p.column ≤ q.column⟩

instance (p q : Point) : Decidable (p ≤ q) := inferInstanceAs (Decidable (_ ∨ _))

theorem Point.le_def {p q : Point} :
    p ≤ q ↔ p.line < q.line ∨ p.line = q.line ∧ p.column ≤ q.column := Iff.rfl

theorem Point.le_refl (p : Point) : p ≤ p := .inr ⟨rfl, Nat.le_refl _⟩

theorem Point.le_trans {p q r : Point} (hpq : p ≤ q) (hqr : q ≤ r) : p ≤ r := by
  rw [Point.le_def] at *
  omega

theorem Point.le_total (p q : Point) : p ≤ q ∨ q ≤ p := by
  rw [Point.le_def, Point.le_def]
  omega

theorem Point.le_antisymm {p q : Point} (hpq : p ≤ q) (hqp : q ≤ p) : p = q := by
  rw [Point.le_def] at hpq hqp
  cases p
  cases q
  simp only [Point.mk.injEq]
  simp only at hpq hqp
  omega

namespace Grid

variable {g : Grid} {p q : Point}

theorem first_le (hp : g.Has p) : g.first ≤ p := by
  rw [Point.le_def]
  simp only [Has, first] at *
  omega

theorem le_last (hp : g.Has p) : p ≤ g.last := by
  rw [Point.le_def]
  simp only [Has, last] at *
  omega

theorem last_has (hp : g.Has p) : g.Has g.last := by
  simp only [Has, last] at *
  omega

theorem first_has (hp : g.Has p) : g.Has g.first := by
  simp only [Has, first] at *
  omega

theorem succ_last : g.succ g.last = g.last := by simp [succ]

theorem pred_first : g.pred g.first = g.first := by simp [pred]

theorem succ_has (hp : g.Has p) : g.Has (g.succ p) := by
  unfold succ
  split
  · exact hp
  · rename_i hne
    have hlast : ¬ (p.line = g.screenLines - 1 ∧ p.column = g.columns - 1) := by
      rintro ⟨hline, hcol⟩
      apply hne
      cases p
      simp_all [last]
    simp only [Has] at hp
    split <;> simp only [Has] <;> omega

theorem pred_has (hp : g.Has p) : g.Has (g.pred p) := by
  unfold pred
  split
  · exact hp
  · rename_i hne
    have hfirst : ¬ (p.line = -(g.historySize : Int) ∧ p.column = 0) := by
      rintro ⟨hline, hcol⟩
      apply hne
      cases p
      simp_all [first]
    simp only [Has] at hp
    split <;> simp only [Has] <;> omega

/-- In the grid, the numbers have the order of the points. -/
theorem rank_lt (hp : g.Has p) (hq : g.Has q) (hle : p ≤ q) (hne : p ≠ q) :
    g.rank p < g.rank q := by
  have hnot : ¬ q ≤ p := fun hge => hne (Point.le_antisymm hle hge)
  rw [Point.le_def] at hle hnot
  simp only [Has] at hp hq
  unfold rank
  rcases hle with hline | ⟨hline, hcol⟩
  · have hstep : (p.line + g.historySize).toNat + 1 ≤ (q.line + g.historySize).toNat := by omega
    have hmul := Nat.mul_le_mul_right g.columns hstep
    rw [Nat.succ_mul] at hmul
    omega
  · have hlt : p.column < q.column := by omega
    rw [hline]
    omega

theorem le_succ (p : Point) : p ≤ g.succ p := by
  unfold succ
  split
  · exact Point.le_refl p
  · split
    · exact .inr ⟨rfl, Nat.le_succ p.column⟩
    · exact .inl (Int.lt_succ p.line)

theorem succ_ne (hlast : p ≠ g.last) : p ≠ g.succ p := by
  unfold succ
  rw [if_neg hlast]
  intro heq
  split at heq
  · have hcol := congrArg Point.column heq
    simp only at hcol
    omega
  · have hline := congrArg Point.line heq
    simp only at hline
    omega

/-- Between a point and the next one there is none. -/
theorem succ_le (hp : g.Has p) (hq : g.Has q) (hle : p ≤ q) (hne : p ≠ q) : g.succ p ≤ q := by
  have hnot : ¬ q ≤ p := fun hge => hne (Point.le_antisymm hle hge)
  unfold succ
  split
  · exact hle
  · simp only [Has] at hp hq
    rw [Point.le_def] at hle hnot
    split <;> (rw [Point.le_def]; simp only; omega)

theorem pred_le (p : Point) : g.pred p ≤ p := by
  unfold pred
  split
  · exact Point.le_refl p
  · split
    · exact .inl (show p.line - 1 < p.line by omega)
    · exact .inr ⟨rfl, Nat.sub_le p.column 1⟩

/-- Between a point and the previous one there is none. -/
theorem le_pred (hp : g.Has p) (hq : g.Has q) (hle : q ≤ p) (hne : p ≠ q) : q ≤ g.pred p := by
  have hnot : ¬ p ≤ q := fun hge => hne (Point.le_antisymm hge hle)
  unfold pred
  split
  · exact hle
  · simp only [Has] at hp hq
    rw [Point.le_def] at hle hnot
    split <;> (rw [Point.le_def]; simp only; omega)

theorem pred_ne (hfirst : p ≠ g.first) : g.pred p ≠ p := by
  unfold pred
  rw [if_neg hfirst]
  intro heq
  split at heq
  · have hline := congrArg Point.line heq
    simp only at hline
    omega
  · have hcol := congrArg Point.column heq
    simp only at hcol
    omega

theorem rank_le (hp : g.Has p) (hq : g.Has q) (hle : p ≤ q) : g.rank p ≤ g.rank q := by
  by_cases heq : p = q
  · rw [heq]
  · exact Nat.le_of_lt (rank_lt hp hq hle heq)

theorem rank_le_iff (hp : g.Has p) (hq : g.Has q) : g.rank p ≤ g.rank q ↔ p ≤ q := by
  constructor
  · intro hrank
    by_contra hnot
    have hlt := rank_lt hq hp ((Point.le_total p q).resolve_left hnot)
      fun heq => hnot (heq ▸ Point.le_refl q)
    omega
  · exact rank_le hp hq

/-- The number of points. -/
def count (g : Grid) : Nat := (g.historySize + g.screenLines) * g.columns

/-- The point with a number in the order of reading. -/
def point (g : Grid) (k : Nat) : Point :=
  ⟨(k / g.columns : Nat) - (g.historySize : Int), k % g.columns⟩

theorem point_rank {p : Point} (hp : g.Has p) : g.point (g.rank p) = p := by
  rcases hp with ⟨hlow, -, hcol⟩
  have hpos : 0 < g.columns := by omega
  cases p
  simp only [point, rank, Point.mk.injEq] at *
  rw [Nat.mul_comm, Nat.mul_add_div hpos, Nat.mul_add_mod, Nat.div_eq_of_lt hcol,
    Nat.mod_eq_of_lt hcol]
  omega

theorem rank_lt_count {p : Point} (hp : g.Has p) : g.rank p < g.count := by
  rcases hp with ⟨hlow, hhigh, hcol⟩
  have hline : (p.line + g.historySize).toNat + 1 ≤ g.historySize + g.screenLines := by omega
  have hmul := Nat.mul_le_mul_right g.columns hline
  rw [Nat.succ_mul] at hmul
  unfold rank count
  omega

theorem rank_point (k : Nat) : g.rank (g.point k) = k := by
  unfold rank point
  have hdiv := Nat.div_add_mod k g.columns
  rw [Nat.mul_comm] at hdiv
  simp only [Int.sub_add_cancel, Int.toNat_natCast]
  exact hdiv

end Grid

/-! ## What the code relies on -/

/-- A search reads the text and not what part of it is in view, and `Point::add`
and `Point::sub` stay in the grid. -/
structure LawfulSearch (A : Alacritty T R) : Prop where
  right_scroll : ∀ regex o e sc t,
    A.regexSearchRight regex o e (A.scrollDisplay sc t) = A.regexSearchRight regex o e t
  left_scroll : ∀ regex o e sc t,
    A.regexSearchLeft regex o e (A.scrollDisplay sc t) = A.regexSearchLeft regex o e t
  add_has : ∀ (g : Grid) p, 0 < g.columns → 0 < g.screenLines → g.Has (A.pointAdd g p 1)
  sub_has : ∀ (g : Grid) p, 0 < g.columns → 0 < g.screenLines → g.Has (A.pointSub g p 1)
  add_succ : ∀ (g : Grid) p, g.Has p → A.pointAdd g p 1 = g.succ p
  sub_pred : ∀ (g : Grid) p, g.Has p → A.pointSub g p 1 = g.pred p

/-- The searches return the nearest match: `endOf` gives the end of the match that
begins at a point, `startOf` the start of the one that ends there. -/
structure Nearest (A : Alacritty T R) (regex : R) (t : T) (endOf startOf : Point → Option Point) :
    Prop where
  endOf_has : ∀ p q, endOf p = some q → (A.grid t).Has p ∧ (A.grid t).Has q ∧ p ≤ q
  startOf_has : ∀ p q, startOf q = some p → (A.grid t).Has p ∧ (A.grid t).Has q ∧ p ≤ q
  right : ∀ o e m, A.regexSearchRight regex o e t = some m ↔
    endOf m.start = some m.stop ∧ o ≤ m.start ∧ m.stop ≤ e ∧
      ∀ p q, endOf p = some q → o ≤ p → q ≤ e → m.start ≤ p
  left : ∀ o e m, A.regexSearchLeft regex o e t = some m ↔
    startOf m.stop = some m.start ∧ m.stop ≤ o ∧ e ≤ m.start ∧
      ∀ p q, startOf q = some p → q ≤ o → e ≤ p → q ≤ m.stop

end RataShell.Term
