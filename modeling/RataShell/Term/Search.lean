import RataShell.Lib.Scan
import RataShell.Term.Plain

/-!
# Repeated search

`search_next` called over and over with one pattern in one direction. A call
starts one cell behind the start of the last match, or at the live cursor where
there is none, and searches to the end of the grid in its direction.

* `reportsAgain_iff`: which matches are reported again and again.
* `complete_iff`: when these are all of them.
* `search_incomplete`: a forward search never reports what lies above the cursor.
-/

namespace RataShell.Term

variable {T R : Type}

/-! ## The matches -/

/-- The leftmost non-overlapping matches of the text: a search from the first
point, going on behind each match. -/
def Leftmost (A : Alacritty T R) (regex : R) (t : T) (m : Match) : Prop :=
  Scan.Meets (fun o => A.regexSearchRight regex o (A.grid t).last t)
    (fun m => if m.stop = (A.grid t).last then none else some ((A.grid t).succ m.stop))
    (A.grid t).first m

/-- The rightmost non-overlapping matches before a point: a search from it to the
left, going on before each match. -/
def Rightmost (A : Alacritty T R) (regex : R) (t : T) (o : Point) (m : Match) : Prop :=
  Scan.Meets (fun o => A.regexSearchLeft regex o (A.grid t).first t)
    (fun m => if m.start = (A.grid t).first then none else some ((A.grid t).pred m.start))
    o m

/-- The search of `search_next` from call to call. -/
def scanner (A : Alacritty T R) (regex : R) (forward : Bool) (t : T) :
    Scan.Scanner Point Match where
  find o :=
    if forward then A.regexSearchRight regex o (A.grid t).last t
    else A.regexSearchLeft regex o (A.grid t).first t
  next m := if forward then (A.grid t).succ m.start else (A.grid t).pred m.start

namespace Nearest

variable {A : Alacritty T R} {regex : R} {t : T} {endOf startOf : Point → Option Point}

/-- A match that begins at a point or behind it is found. -/
theorem exists_right (hN : Nearest A regex t endOf startOf) {o p q : Point}
    (hend : endOf p = some q) (ho : o ≤ p) :
    ∃ m, A.regexSearchRight regex o (A.grid t).last t = some m ∧ m.start ≤ p := by
  -- the nearest one is the one of least number
  induction hr : (A.grid t).rank p using Nat.strong_induction_on generalizing p q with
  | _ r ih =>
      rcases hN.endOf_has p q hend with ⟨hp, hq, -⟩
      by_cases hleast : ∀ p' q', endOf p' = some q' → o ≤ p' → q' ≤ (A.grid t).last → p ≤ p'
      · have hfound := (hN.right o (A.grid t).last ⟨p, q⟩).2
          ⟨hend, ho, Grid.le_last hq, hleast⟩
        exact ⟨⟨p, q⟩, hfound, Point.le_refl p⟩
      · push Not at hleast
        rcases hleast with ⟨p', q', hend', ho', -, hlt⟩
        rcases hN.endOf_has p' q' hend' with ⟨hp', -, -⟩
        have hle : p' ≤ p := (Point.le_total p' p).resolve_right hlt
        have hne : p' ≠ p := fun heq => hlt (heq ▸ Point.le_refl p)
        rcases ih _ (hr ▸ Grid.rank_lt hp' hp hle hne) hend' ho' rfl with ⟨m, hm, hmp⟩
        exact ⟨m, hm, Point.le_trans hmp hle⟩

/-- A match that ends at a point or before it is found. -/
theorem exists_left (hN : Nearest A regex t endOf startOf) {o p q : Point}
    (hstart : startOf q = some p) (ho : q ≤ o) :
    ∃ m, A.regexSearchLeft regex o (A.grid t).first t = some m ∧ q ≤ m.stop := by
  induction hr : (A.grid t).rank (A.grid t).last - (A.grid t).rank q
    using Nat.strong_induction_on generalizing p q with
  | _ r ih =>
      rcases hN.startOf_has p q hstart with ⟨hp, hq, -⟩
      by_cases hgreatest : ∀ p' q', startOf q' = some p' → q' ≤ o → (A.grid t).first ≤ p' → q' ≤ q
      · have hfound := (hN.left o (A.grid t).first ⟨p, q⟩).2
          ⟨hstart, ho, Grid.first_le hp, hgreatest⟩
        exact ⟨⟨p, q⟩, hfound, Point.le_refl q⟩
      · push Not at hgreatest
        rcases hgreatest with ⟨p', q', hstart', ho', -, hlt⟩
        rcases hN.startOf_has p' q' hstart' with ⟨-, hq', -⟩
        have hle : q ≤ q' := (Point.le_total q q').resolve_right hlt
        have hne : q ≠ q' := fun heq => hlt (heq ▸ Point.le_refl q)
        have hrank := Grid.rank_lt hq hq' hle hne
        have hlast := Grid.rank_le hq' (Grid.last_has hq') (Grid.le_last hq')
        rcases ih _ (by omega) hstart' ho' rfl with ⟨m, hm, hqm⟩
        exact ⟨m, hm, Point.le_trans hle hqm⟩

/-- What a call finds lies in the grid, in the direction of the search. -/
theorem find_has (hN : Nearest A regex t endOf startOf) (forward : Bool) {o : Point} {m : Match}
    (hfind : (scanner A regex forward t).find o = some m) :
    (A.grid t).Has m.start ∧ (A.grid t).Has m.stop ∧ m.start ≤ m.stop ∧
      (if forward then o ≤ m.start else m.stop ≤ o) := by
  cases forward with
  | true =>
      rcases (hN.right _ _ _).1 hfind with ⟨hend, ho, -, -⟩
      rcases hN.endOf_has _ _ hend with ⟨hstart, hstop, hle⟩
      exact ⟨hstart, hstop, hle, ho⟩
  | false =>
      rcases (hN.left _ _ _).1 hfind with ⟨hbegin, ho, -, -⟩
      rcases hN.startOf_has _ _ hbegin with ⟨hstart, hstop, hle⟩
      exact ⟨hstart, hstop, hle, ho⟩

/-- In the last cell nothing is found when no match begins there. -/
theorem find_last_none (hN : Nearest A regex t endOf startOf)
    (hlast : endOf (A.grid t).last = none) :
    (scanner A regex true t).find (A.grid t).last = none := by
  by_contra hsome
  rcases Option.ne_none_iff_exists'.1 hsome with ⟨x, hx⟩
  rcases hN.find_has _ hx with ⟨hstart, -, -, hdir⟩
  rcases (hN.right _ _ _).1 hx with ⟨hend, -⟩
  rw [Point.le_antisymm (Grid.le_last hstart) hdir, hlast] at hend
  cases hend

/-- Else the match that begins there. -/
theorem find_last_some (hN : Nearest A regex t endOf startOf) {q : Point}
    (hlast : endOf (A.grid t).last = some q) :
    (scanner A regex true t).find (A.grid t).last = some ⟨(A.grid t).last, q⟩ := by
  rcases hN.exists_right hlast (Point.le_refl _) with ⟨⟨p, r⟩, hx, hxle⟩
  rcases hN.find_has true hx with ⟨-, -, -, hdir⟩
  rcases (hN.right _ _ _).1 hx with ⟨hend, -⟩
  cases Point.le_antisymm hxle hdir
  cases hlast.symm.trans hend
  exact hx

/-- In the first cell nothing is found when no match ends there. -/
theorem find_first_none (hN : Nearest A regex t endOf startOf)
    (hfirst : startOf (A.grid t).first = none) :
    (scanner A regex false t).find (A.grid t).first = none := by
  by_contra hsome
  rcases Option.ne_none_iff_exists'.1 hsome with ⟨x, hx⟩
  rcases hN.find_has _ hx with ⟨-, hstop, -, hdir⟩
  rcases (hN.left _ _ _).1 hx with ⟨hstart, -⟩
  rw [Point.le_antisymm hdir (Grid.first_le hstop), hfirst] at hstart
  cases hstart

/-- Else the match of this cell: one that ends in it begins in it. -/
theorem find_first_some (hN : Nearest A regex t endOf startOf) {p : Point}
    (hfirst : startOf (A.grid t).first = some p) :
    (scanner A regex false t).find (A.grid t).first =
      some ⟨(A.grid t).first, (A.grid t).first⟩ := by
  rcases hN.exists_left hfirst (Point.le_refl _) with ⟨⟨q, r⟩, hx, hxle⟩
  rcases hN.find_has false hx with ⟨hstart, -, hle, hdir⟩
  cases Point.le_antisymm hdir hxle
  cases Point.le_antisymm hle (Grid.first_le hstart)
  exact hx

end Nearest

/-- The last point in the direction of a search. -/
def edge (g : Grid) (forward : Bool) : Point := if forward then g.last else g.first

/-- The points that a search from a point still has before it. -/
def ahead (g : Grid) (forward : Bool) (p : Point) : Nat :=
  if forward then g.rank g.last - g.rank p else g.rank p

section Ends

variable {A : Alacritty T R} {regex : R} {t : T} {endOf startOf : Point → Option Point}

/-- A search goes on inside the grid, nearer to the edge or at the edge. -/
theorem scanner_advance (hN : Nearest A regex t endOf startOf) (forward : Bool) {o : Point}
    (ho : (A.grid t).Has o) {m : Match} (hfind : (scanner A regex forward t).find o = some m) :
    (scanner A regex forward t).next m = edge (A.grid t) forward ∨
      ahead (A.grid t) forward ((scanner A regex forward t).next m) <
        ahead (A.grid t) forward o := by
  rcases hN.find_has _ hfind with ⟨hstart, hstop, hle, hdir⟩
  cases forward with
  | true =>
      by_cases hlast : m.start = (A.grid t).last
      · refine .inl ?_
        show (A.grid t).succ m.start = (A.grid t).last
        rw [hlast, Grid.succ_last]
      · have hrank := Grid.rank_lt hstart (Grid.succ_has hstart) (Grid.le_succ m.start)
          (Grid.succ_ne hlast)
        have hfrom := Grid.rank_le ho hstart hdir
        have hto := Grid.rank_le (Grid.succ_has hstart) (Grid.last_has hstart)
          (Grid.le_last (Grid.succ_has hstart))
        refine .inr ?_
        simp only [ahead, scanner, if_true]
        omega
  | false =>
      by_cases hfirst : m.start = (A.grid t).first
      · refine .inl ?_
        show (A.grid t).pred m.start = (A.grid t).first
        rw [hfirst, Grid.pred_first]
      · have hrank := Grid.rank_lt (Grid.pred_has hstart) hstart (Grid.pred_le m.start)
          (Grid.pred_ne hfirst)
        have hfrom := Grid.rank_le hstart ho (Point.le_trans hle hdir)
        refine .inr ?_
        simp only [ahead, scanner, if_false, Bool.false_eq_true]
        omega

/-- The step off the outermost cell is clamped to it. -/
theorem scanner_clamps (hN : Nearest A regex t endOf startOf) (forward : Bool) {m : Match}
    (hfind : (scanner A regex forward t).find (edge (A.grid t) forward) = some m) :
    (scanner A regex forward t).next m = edge (A.grid t) forward := by
  rcases hN.find_has _ hfind with ⟨hstart, hstop, hle, hdir⟩
  cases forward with
  | true =>
      have hlast : m.start = (A.grid t).last := Point.le_antisymm (Grid.le_last hstart) hdir
      show (A.grid t).succ m.start = (A.grid t).last
      rw [hlast, Grid.succ_last]
  | false =>
      have hfirst : m.start = (A.grid t).first :=
        Point.le_antisymm (Point.le_trans hle hdir) (Grid.first_le hstart)
      show (A.grid t).pred m.start = (A.grid t).first
      rw [hfirst, Grid.pred_first]

/-- The search of `search_next` advances and clamps at the edge of the grid. -/
theorem scanner_ends (hN : Nearest A regex t endOf startOf) (forward : Bool) {home : Point}
    (hhome : (A.grid t).Has home) :
    Scan.Ends (scanner A regex forward t) home (edge (A.grid t) forward) (A.grid t).Has
      (ahead (A.grid t) forward) where
  home_ok := hhome
  next_ok := by
    intro o m _ hfind
    rcases hN.find_has _ hfind with ⟨hstart, -⟩
    cases forward with
    | true => exact Grid.succ_has hstart
    | false => exact Grid.pred_has hstart
  advance := fun _ _ ho hfind => scanner_advance hN forward ho hfind
  last_next := fun _ hfind => scanner_clamps hN forward hfind
  last_found := by
    intro hlast o ho
    rcases Option.ne_none_iff_exists'.1 hlast with ⟨m, hm⟩
    rcases hN.find_has _ hm with ⟨hstart, hstop, hle, hdir⟩
    cases forward with
    | true =>
        rcases (hN.right _ _ _).1 hm with ⟨hend, -⟩
        rcases hN.exists_right hend (Point.le_trans (Grid.le_last ho) hdir) with ⟨x, hx, -⟩
        exact Option.ne_none_iff_exists'.2 ⟨x, hx⟩
    | false =>
        rcases (hN.left _ _ _).1 hm with ⟨hbegin, -⟩
        rcases hN.exists_left hbegin (Point.le_trans hdir (Grid.first_le ho)) with ⟨x, hx, -⟩
        exact Option.ne_none_iff_exists'.2 ⟨x, hx⟩

end Ends

/-! ## The calls of `search_next` -/

namespace TermHost

variable (A : Alacritty T R)

/-- The grid has the size of the host, with the cursor and the view inside. -/
structure Fits (t : TermHost T) : Prop where
  dims : A.dims t.term = (t.size.cols, t.size.lines)
  cursor : (A.grid t.term).Has (A.grid t.term).cursor
  offset : t.displayOffset A ≤ t.historySize A

instance (t : TermHost T) : Decidable (Fits A t) :=
  decidable_of_iff (A.dims t.term = (t.size.cols, t.size.lines) ∧
      (A.grid t.term).Has (A.grid t.term).cursor ∧ t.displayOffset A ≤ t.historySize A)
    ⟨fun h => ⟨h.1, h.2.1, h.2.2⟩, fun h => ⟨h.dims, h.cursor, h.offset⟩⟩

/-- The same text, seen from another display offset. -/
structure SameText (t t' : TermHost T) : Prop where
  size : t'.size = t.size
  grid : A.grid t'.term = { A.grid t.term with displayOffset := t'.displayOffset A }
  right : ∀ regex o e, A.regexSearchRight regex o e t'.term = A.regexSearchRight regex o e t.term
  left : ∀ regex o e, A.regexSearchLeft regex o e t'.term = A.regexSearchLeft regex o e t.term

variable {A} {t t' t'' : TermHost T}

theorem SameText.refl (t : TermHost T) : SameText A t t :=
  ⟨rfl, rfl, fun _ _ _ => rfl, fun _ _ _ => rfl⟩

theorem SameText.trans (h : SameText A t t') (h' : SameText A t' t'') : SameText A t t'' := by
  constructor
  · rw [h'.size, h.size]
  · rw [h'.grid, h.grid]
  · intro regex o e
    rw [h'.right, h.right]
  · intro regex o e
    rw [h'.left, h.left]

theorem SameText.historySize_eq (h : SameText A t t') : t'.historySize A = t.historySize A := by
  simp only [historySize, h.grid]

theorem SameText.fits (h : SameText A t t') (ht : Fits A t)
    (hoffset : t'.displayOffset A ≤ t.historySize A) : Fits A t' := by
  have hgrid := h.grid
  constructor
  · have hdims := ht.dims
    simp only [Alacritty.dims] at hdims ⊢
    rw [hgrid, h.size, hdims]
  · have hcursor := ht.cursor
    rw [hgrid]
    exact hcursor
  · rw [h.historySize_eq]
    exact hoffset

theorem scanner_same (h : SameText A t t') (regex : R) (forward : Bool) :
    scanner A regex forward t'.term = scanner A regex forward t.term := by
  simp only [scanner, h.grid, h.right, h.left]
  rfl

theorem nearest_same {regex : R} {endOf startOf : Point → Option Point}
    (hN : Nearest A regex t.term endOf startOf) (h : SameText A t t') :
    Nearest A regex t'.term endOf startOf := by
  constructor
  · rw [h.grid]
    exact hN.endOf_has
  · rw [h.grid]
    exact hN.startOf_has
  · simp only [h.right]
    exact hN.right
  · simp only [h.left]
    exact hN.left

/-- A scroll shows the same text. -/
theorem scroll_same (hA : Lawful A) (hS : LawfulSearch A) (sc : Scroll) (t : TermHost T) :
    SameText A t { t with term := A.scrollDisplay sc t.term } := by
  constructor
  · rfl
  · simp only [displayOffset, hA.scroll_grid]
  · intro regex o e
    exact hS.right_scroll regex o e sc t.term
  · intro regex o e
    exact hS.left_scroll regex o e sc t.term

theorem showLine_same (hA : Lawful A) (hS : LawfulSearch A) (line : Int) (t : TermHost T) :
    SameText A t (t.showLine A line) := by
  rcases showLine_cases A line t with hsame | ⟨sc, hscroll⟩
  · rw [hsame]
    exact SameText.refl t
  · rw [hscroll]
    exact scroll_same hA hS sc t

/-- A line of the grid is brought into view. -/
theorem showLine_view (hA : Lawful A) (hoffset : t.displayOffset A ≤ t.historySize A) (line : Int)
    (hfirst : -(t.historySize A : Int) ≤ line) (hlast : line < t.size.lines) :
    (t.showLine A line).displayOffset A ≤ t.historySize A ∧
      0 ≤ line + (t.showLine A line).displayOffset A ∧
      line + (t.showLine A line).displayOffset A < t.size.lines := by
  have hlines := t.size_bounds.2.1
  unfold showLine
  simp only
  split
  · simp only [displayOffset, historySize, hA.scroll_grid, Scroll.offset] at *
    omega
  · split
    · simp only [displayOffset, historySize, hA.scroll_grid, Scroll.offset] at *
      omega
    · omega

/-- A call finds what the scanner finds from its origin. -/
theorem find_eq (hdims : A.dims t.term = (t.size.cols, t.size.lines)) (regex : R)
    (forward : Bool) :
    t.find A regex forward = (scanner A regex forward t.term).find (t.searchFrom A forward) := by
  simp only [Alacritty.dims, Prod.mk.injEq] at hdims
  simp only [find, scanner, Grid.last, Grid.first, hdims.1, hdims.2, historySize]

/-- The search state is not part of the text. -/
theorem same_of_term (hsize : t'.size = t.size) (hterm : t'.term = t.term) : SameText A t t' := by
  constructor
  · exact hsize
  · simp only [displayOffset, hterm]
  · simp only [hterm, implies_true]
  · simp only [hterm, implies_true]

variable (pattern : String) in
theorem setPattern_same (t : TermHost T) : SameText A t (t.setPattern pattern) :=
  same_of_term (setPattern_size pattern t) (setPattern_term pattern t)

variable (pattern : String) in
theorem setPattern_fits (ht : Fits A t) : Fits A (t.setPattern pattern) := by
  refine (setPattern_same pattern t).fits ht ?_
  simp only [displayOffset, setPattern_term]
  exact ht.offset

section Calls

variable {pattern : String} {regex : R} {forward : Bool}

theorem searchNext_none (hpattern : pattern ≠ "") (hregex : A.regex pattern = some regex)
    (hfind : (t.setPattern pattern).find A regex forward = none) :
    t.searchNext A pattern forward =
      ({ t.setPattern pattern with searchOrigin := none }, (0, 0, 0)) := by
  simp [searchNext, hpattern, hregex, hfind]

/-- The host after a call that finds `m`. -/
def found (A : Alacritty T R) (pattern : String) (m : Match) (t : TermHost T) : TermHost T :=
  { t.setPattern pattern with searchOrigin := some m.start }.showLine A m.start.line

theorem found_size (A : Alacritty T R) (pattern : String) (m : Match) (t : TermHost T) :
    (t.found A pattern m).size = t.size := by
  rw [found, showLine_size]
  exact setPattern_size pattern t

theorem searchNext_some (hpattern : pattern ≠ "") (hregex : A.regex pattern = some regex)
    {m : Match}
    (hfind : (t.setPattern pattern).find A regex forward = some m) :
    t.searchNext A pattern forward = (t.found A pattern m, (t.found A pattern m).place A m) := by
  simp [searchNext, hpattern, hregex, hfind, found]

variable (pattern) in
theorem found_same (hA : Lawful A) (hS : LawfulSearch A) (m : Match) (t : TermHost T) :
    SameText A t (t.found A pattern m) := by
  have horigin : SameText A t { t.setPattern pattern with searchOrigin := some m.start } :=
    same_of_term (setPattern_size pattern t) (setPattern_term pattern t)
  exact horigin.trans (showLine_same hA hS _ _)

variable (pattern) in
/-- A match of the grid is in view after the call that found it. -/
theorem found_view (hA : Lawful A) (hdims : A.dims t.term = (t.size.cols, t.size.lines))
    (hoffset : t.displayOffset A ≤ t.historySize A) {m : Match}
    (hstart : (A.grid t.term).Has m.start) :
    (t.found A pattern m).displayOffset A ≤ t.historySize A ∧
      0 ≤ m.start.line + (t.found A pattern m).displayOffset A ∧
      m.start.line + (t.found A pattern m).displayOffset A < t.size.lines := by
  simp only [Alacritty.dims, Prod.mk.injEq] at hdims
  have horigin : SameText A t { t.setPattern pattern with searchOrigin := some m.start } :=
    same_of_term (setPattern_size pattern t) (setPattern_term pattern t)
  have hoffset' : displayOffset A { t.setPattern pattern with searchOrigin := some m.start } ≤
      historySize A { t.setPattern pattern with searchOrigin := some m.start } := by
    simp only [displayOffset, historySize, setPattern_term]
    exact hoffset
  have hlast : m.start.line < t.size.lines := by
    rw [← hdims.2]
    exact hstart.2.1
  have hview := showLine_view hA hoffset' m.start.line
    (by rw [horigin.historySize_eq]; exact hstart.1) (by rw [horigin.size]; exact hlast)
  rw [horigin.historySize_eq, horigin.size] at hview
  exact hview

variable (forward) in
/-- One call goes on where the scanner does, over the same text. -/
theorem searchNext_step {endOf startOf : Point → Option Point} (hA : Lawful A)
    (hS : LawfulSearch A) (hpattern : pattern ≠ "") (hregex : A.regex pattern = some regex)
    (ht : Fits A t) (hN : Nearest A regex t.term endOf startOf) :
    SameText A t (t.searchNext A pattern forward).1 ∧
      Fits A (t.searchNext A pattern forward).1 ∧
      ((t.searchNext A pattern forward).1.setPattern pattern).searchFrom A forward =
        (scanner A regex forward t.term).after (A.grid t.term).cursor
          ((t.setPattern pattern).searchFrom A forward) := by
  have hfits : Fits A (t.setPattern pattern) := setPattern_fits pattern ht
  have hfind := find_eq hfits.dims regex forward
  rw [scanner_same (setPattern_same pattern t)] at hfind
  cases hm : (t.setPattern pattern).find A regex forward with
  | none =>
      rw [searchNext_none hpattern hregex hm]
      rw [hm] at hfind
      -- the next call starts again at the live cursor
      refine ⟨same_of_term (setPattern_size pattern t) (setPattern_term pattern t), ?_, ?_⟩
      · exact ⟨hfits.dims, hfits.cursor, hfits.offset⟩
      · rw [Scan.Scanner.after_none hfind.symm, setPattern_of_eq (by simp)]
        simp only [searchFrom, setPattern_term]
  | some m =>
      rw [searchNext_some hpattern hregex hm]
      rw [hm] at hfind
      rcases hN.find_has _ hfind.symm with ⟨hstart, -⟩
      have hfound := found_same pattern hA hS m t
      have hview := found_view pattern hA ht.dims ht.offset hstart
      refine ⟨hfound, hfound.fits ht hview.1, ?_⟩
      have horigin : (t.found A pattern m).searchOrigin = some m.start := by simp [found]
      have hhas : (A.grid (t.found A pattern m).term).Has m.start := by
        rw [hfound.grid]
        exact hstart
      rw [Scan.Scanner.after_some hfind.symm, setPattern_of_eq (by simp [found])]
      simp only [searchFrom, horigin, hS.add_succ _ _ hhas, hS.sub_pred _ _ hhas, scanner]
      rw [hfound.grid]
      rfl

/-- The place that a call returns for the match it finds. -/
theorem place_found (pattern : String) (hA : Lawful A)
    (hdims : A.dims t.term = (t.size.cols, t.size.lines))
    (hoffset : t.displayOffset A ≤ t.historySize A) {m : Match}
    (hstart : (A.grid t.term).Has m.start) (hle : m.start ≤ m.stop) :
    ∃ row : Nat, (row : Int) = m.start.line + (t.found A pattern m).displayOffset A ∧
      row < t.size.lines ∧ 0 < t.matchLen m ∧
      (t.found A pattern m).place A m =
        (UInt16.ofNat m.start.column, UInt16.ofNat row, UInt16.ofNat (t.matchLen m)) := by
  rcases found_view pattern hA hdims hoffset hstart with ⟨-, hlow, hhigh⟩
  simp only [Alacritty.dims, Prod.mk.injEq] at hdims
  have hsize := found_size A pattern m t
  have hcol : m.start.column < t.size.cols := by
    rw [← hdims.1]
    exact hstart.2.2
  refine ⟨_, Int.toNat_of_nonneg hlow, by omega, ?_, ?_⟩
  · rw [Point.le_def] at hle
    unfold matchLen
    split <;> omega
  · simp only [place, hsize, matchLen]
    rw [if_neg (by omega)]

end Calls

section Again

variable (A) (pattern : String) (forward : Bool)

/-- The host after `k` calls of `search_next`. -/
def calls (t : TermHost T) : Nat → TermHost T
  | 0 => t
  | k + 1 => ((calls t k).searchNext A pattern forward).1

/-- The next call finds a match and returns its place in the viewport. -/
structure Reports (t : TermHost T) (m : Match) : Prop where
  found : ∃ regex, A.regex pattern = some regex ∧
    (t.setPattern pattern).find A regex forward = some m
  place : ∃ row : Nat,
    (row : Int) = m.start.line + (t.searchNext A pattern forward).1.displayOffset A ∧
      row < t.size.lines ∧ 0 < t.matchLen m ∧
      (t.searchNext A pattern forward).2 =
        (UInt16.ofNat m.start.column, UInt16.ofNat row, UInt16.ofNat (t.matchLen m))

/-- A match is reported, and again each time the search comes round. -/
def ReportsAgain (t : TermHost T) (m : Match) : Prop :=
  ∀ n, ∃ k, n ≤ k ∧ Reports A pattern forward (calls A pattern forward t k) m

/-- Every leftmost non-overlapping match is reported, again and again. -/
def Complete (regex : R) (t : TermHost T) : Prop :=
  ∀ m, Leftmost A regex t.term m → ReportsAgain A pattern forward t m

/-- Where the matches are that the calls report: from the live cursor on, unless
one in the outermost cell holds the search. -/
def Seen (regex : R) (endOf startOf : Point → Option Point) (t : T) (m : Match) : Prop :=
  if forward then
    match endOf (A.grid t).last with
    | none => (A.grid t).cursor ≤ m.start
    | some _ => m.start = (A.grid t).last
  else
    match startOf (A.grid t).first with
    | none => Rightmost A regex t (A.grid t).cursor m
    | some _ => m = ⟨(A.grid t).first, (A.grid t).first⟩

variable {A pattern forward} {regex : R} {endOf startOf : Point → Option Point}

variable (forward) in
/-- The calls follow the scanner from the first origin. -/
theorem calls_origin (hA : Lawful A) (hS : LawfulSearch A) (hpattern : pattern ≠ "")
    (hregex : A.regex pattern = some regex) (ht : Fits A t)
    (hN : Nearest A regex t.term endOf startOf) (k : Nat) :
    SameText A t (calls A pattern forward t k) ∧ Fits A (calls A pattern forward t k) ∧
      ((calls A pattern forward t k).setPattern pattern).searchFrom A forward =
        (scanner A regex forward t.term).origin (A.grid t.term).cursor
          ((t.setPattern pattern).searchFrom A forward) k := by
  induction k with
  | zero => exact ⟨SameText.refl t, ht, rfl⟩
  | succ k ih =>
      rcases ih with ⟨hsame, hfits, horigin⟩
      have hNk : Nearest A regex (calls A pattern forward t k).term endOf startOf :=
        nearest_same hN hsame
      rcases searchNext_step forward hA hS hpattern hregex hfits hNk with
        ⟨hsame', hfits', horigin'⟩
      refine ⟨hsame.trans hsame', hfits', ?_⟩
      rw [Scan.Scanner.origin_succ, ← horigin, calls, horigin', scanner_same hsame, hsame.grid]

/-- The `k`-th call reports what the scanner does. -/
theorem reports_iff (hA : Lawful A) (hS : LawfulSearch A) (hpattern : pattern ≠ "")
    (hregex : A.regex pattern = some regex) (ht : Fits A t)
    (hN : Nearest A regex t.term endOf startOf) (k : Nat) (m : Match) :
    Reports A pattern forward (calls A pattern forward t k) m ↔
      (scanner A regex forward t.term).report (A.grid t.term).cursor
        ((t.setPattern pattern).searchFrom A forward) k = some m := by
  rcases calls_origin forward hA hS hpattern hregex ht hN k with ⟨hsame, hfits, horigin⟩
  have hfind := find_eq (setPattern_fits pattern hfits).dims regex forward
  rw [scanner_same (setPattern_same pattern _), scanner_same hsame, horigin] at hfind
  rw [Scan.Scanner.report, ← hfind]
  constructor
  · rintro ⟨⟨regex', hregex', hfound⟩, -⟩
    rw [hregex] at hregex'
    cases hregex'
    exact hfound
  · intro hfound
    refine ⟨⟨regex, hregex, hfound⟩, ?_⟩
    rw [searchNext_some hpattern hregex hfound]
    rw [hfound] at hfind
    rcases hN.find_has _ hfind.symm with ⟨hstart, -, hle, -⟩
    have hhas : (A.grid (calls A pattern forward t k).term).Has m.start := by
      rw [hsame.grid]
      exact hstart
    exact place_found pattern hA hfits.dims hfits.offset hhas hle

/-- To the right, the search meets all that begins at its origin or behind it. -/
theorem meets_right_iff (hN : Nearest A regex t.term endOf startOf) {o : Point}
    (ho : (A.grid t.term).Has o) (hlast : endOf (A.grid t.term).last = none) {m : Match}
    (hend : endOf m.start = some m.stop) :
    (scanner A regex true t.term).Meets o m ↔ o ≤ m.start := by
  constructor
  · intro hmeets
    induction hmeets with
    | here hfind => exact (hN.find_has _ hfind).2.2.2
    | later hfind hnext _ ih =>
        rcases hN.find_has _ hfind with ⟨hstart, -, -, hdir⟩
        cases hnext
        have hsucc := ih (Grid.succ_has hstart) hend
        exact Point.le_trans hdir (Point.le_trans (Grid.le_succ _) hsucc)
  · intro hle
    rcases hN.endOf_has _ _ hend with ⟨hm, -, -⟩
    induction hr : (A.grid t.term).rank m.start - (A.grid t.term).rank o
      using Nat.strong_induction_on generalizing o with
    | _ r ih =>
        rcases hN.exists_right hend hle with ⟨x, hx, hxm⟩
        rcases hN.find_has true hx with ⟨hstart, -, -, hdir⟩
        rcases (hN.right _ _ _).1 hx with ⟨hxend, -⟩
        by_cases heq : x.start = m.start
        · have hstop : x.stop = m.stop := by
            rw [heq, hend] at hxend
            exact (Option.some.inj hxend).symm
          have hxeq : x = m := by
            cases x
            cases m
            simp_all
          exact .here (hxeq ▸ hx)
        · -- no match begins in the last cell, so the search goes on behind this one
          have hne : x.start ≠ (A.grid t.term).last := by
            intro hxlast
            rw [hxlast, hlast] at hxend
            cases hxend
          have hxr := Grid.rank_lt hstart (Grid.succ_has hstart) (Grid.le_succ x.start)
            (Grid.succ_ne hne)
          have hor := Grid.rank_le ho hstart hdir
          have hxm' := Grid.rank_lt hstart hm hxm heq
          have hnext : (scanner A regex true t.term).next x = (A.grid t.term).succ x.start := rfl
          have hrest := ih _ (by omega) (Grid.succ_has hstart)
            (Grid.succ_le hstart hm hxm heq) rfl
          exact .later hx (congrArg some hnext) hrest

/-- To the left, it meets the rightmost non-overlapping matches. -/
theorem meets_left_iff (hN : Nearest A regex t.term endOf startOf) {o : Point}
    (hfirst : startOf (A.grid t.term).first = none) {m : Match} :
    (scanner A regex false t.term).Meets o m ↔ Rightmost A regex t.term o m := by
  have hnone := hN.find_first_none hfirst
  constructor
  · intro hmeets
    induction hmeets with
    | here hfind => exact .here hfind
    | @later o o' x m hfind hnext hrest ih =>
        cases hnext
        by_cases hx : x.start = (A.grid t.term).first
        · -- before the first point nothing is found
          exfalso
          have hnext : (scanner A regex false t.term).next x = (A.grid t.term).first := by
            show (A.grid t.term).pred x.start = _
            rw [hx, Grid.pred_first]
          rw [hnext] at hrest
          cases hrest with
          | here hfind' => exact absurd (hnone.symm.trans hfind') (by simp)
          | later hfind' _ _ => exact absurd (hnone.symm.trans hfind') (by simp)
        · exact .later hfind (if_neg hx) ih
  · intro hmeets
    induction hmeets with
    | here hfind => exact .here hfind
    | later hfind hnext _ ih =>
        split at hnext
        · cases hnext
        · cases hnext
          exact .later hfind rfl ih

variable (forward) in
/-- A first origin lies in the grid. -/
theorem searchFrom_has (hS : LawfulSearch A) (ht : Fits A t) :
    (A.grid t.term).Has (t.searchFrom A forward) := by
  have hcursor := ht.cursor
  have hcolumns : 0 < (A.grid t.term).columns := by
    simp only [Grid.Has] at hcursor
    omega
  have hlines : 0 < (A.grid t.term).screenLines := by
    have hdims := ht.dims
    have hbounds := t.size_bounds
    simp only [Alacritty.dims, Prod.mk.injEq] at hdims
    omega
  unfold searchFrom
  simp only
  split
  · split
    · exact hS.add_has _ _ hcolumns hlines
    · exact hS.sub_has _ _ hcolumns hlines
  · exact hcursor

/-- The matches that the calls report again and again. -/
theorem reportsAgain_iff (hA : Lawful A) (hS : LawfulSearch A) (hpattern : pattern ≠ "")
    (hregex : A.regex pattern = some regex) (ht : Fits A t)
    (hN : Nearest A regex t.term endOf startOf) {m : Match} (hm : endOf m.start = some m.stop) :
    ReportsAgain A pattern forward t m ↔ Seen A forward regex endOf startOf t.term m := by
  have ho := searchFrom_has forward hS (setPattern_fits pattern ht)
  rw [setPattern_term] at ho
  have hagain := (scanner_ends hN forward ht.cursor).again_iff ho m
  have hreports : ReportsAgain A pattern forward t m ↔
      (scanner A regex forward t.term).Again (A.grid t.term).cursor
        ((t.setPattern pattern).searchFrom A forward) m := by
    simp only [ReportsAgain, reports_iff hA hS hpattern hregex ht hN, Scan.Scanner.Again]
  rw [hreports, hagain]
  -- the scanner comes round to the live cursor, or stays at the edge for ever
  cases forward with
  | true =>
      cases hlast : endOf (A.grid t.term).last with
      | none =>
          simp only [edge, if_true, hN.find_last_none hlast, Seen, hlast]
          exact meets_right_iff hN ht.cursor hlast hm
      | some q =>
          simp only [edge, if_true, hN.find_last_some hlast, Seen, hlast]
          constructor
          · rintro rfl
            rfl
          · intro hmlast
            rw [hmlast, hlast] at hm
            cases m
            simp_all
  | false =>
      cases hfirst : startOf (A.grid t.term).first with
      | none =>
          simp only [edge, Bool.false_eq_true, if_false, hN.find_first_none hfirst, Seen, hfirst]
          exact meets_left_iff hN hfirst
      | some p =>
          simp only [edge, Bool.false_eq_true, if_false, hN.find_first_some hfirst, Seen, hfirst]

/-- Every leftmost non-overlapping match is reported, again and again, exactly
when each is where the calls look. -/
theorem complete_iff (hA : Lawful A) (hS : LawfulSearch A) (hpattern : pattern ≠ "")
    (hregex : A.regex pattern = some regex) (ht : Fits A t)
    (hN : Nearest A regex t.term endOf startOf) :
    Complete A pattern forward regex t ↔
      ∀ m, Leftmost A regex t.term m → Seen A forward regex endOf startOf t.term m := by
  have hend : ∀ m, Leftmost A regex t.term m → endOf m.start = some m.stop := by
    intro m hm
    rcases Scan.Meets.exists_find hm with ⟨o, hfind⟩
    exact ((hN.right _ _ _).1 hfind).1
  constructor
  · intro hcomplete m hm
    exact (reportsAgain_iff hA hS hpattern hregex ht hN (hend m hm)).1 (hcomplete m hm)
  · intro hseen m hm
    exact (reportsAgain_iff hA hS hpattern hregex ht hN (hend m hm)).2 (hseen m hm)

/-- Calls that find nothing at the live cursor find nothing ever. -/
theorem not_reports_of_none (hA : Lawful A) (hS : LawfulSearch A) (hpattern : pattern ≠ "")
    (hregex : A.regex pattern = some regex) (ht : Fits A t)
    (hN : Nearest A regex t.term endOf startOf)
    (hfrom : (t.setPattern pattern).searchFrom A forward = (A.grid t.term).cursor)
    (hnone : (scanner A regex forward t.term).find (A.grid t.term).cursor = none) (k : Nat)
    (m : Match) : ¬ Reports A pattern forward (calls A pattern forward t k) m := by
  have hstay : (scanner A regex forward t.term).origin (A.grid t.term).cursor
      (A.grid t.term).cursor k = (A.grid t.term).cursor := by
    refine Scan.Scanner.origin_invariant (fun o => o = (A.grid t.term).cursor) ?_ rfl k
    intro o ho
    rw [ho]
    exact Scan.Scanner.after_none hnone
  rw [reports_iff hA hS hpattern hregex ht hN, Scan.Scanner.report, hfrom, hstay, hnone]
  simp

end Again

/-- `x` has moved up into the history and the live cursor is below it: a forward
search never reports it. -/
theorem search_incomplete :
    let t := (TermHost.new plain 10 2 100).advance plain [0x78, 13, 10, 13, 10, 13, 10]
    let m : Match := ⟨⟨-2, 0⟩, ⟨-2, 0⟩⟩
    Fits plain t ∧ plain.regex "x" = some ['x'] ∧
      Nearest plain ['x'] t.term (t.term.endOf ['x']) (t.term.startOf ['x']) ∧
      Leftmost plain ['x'] t.term m ∧
      ∀ k, ¬ Reports plain "x" true (calls plain "x" true t k) m := by
  intro t m
  have ht : Fits plain t := by decide +kernel
  have hregex : plain.regex "x" = some ['x'] := by decide +kernel
  have hN := plain_nearest ['x'] t.term
  refine ⟨ht, hregex, hN, .here (by decide +kernel), fun k => ?_⟩
  exact not_reports_of_none plain_lawful plain_lawfulSearch (by decide) hregex ht hN
    (by decide +kernel) (by decide +kernel) k m

/-- With the live cursor before all text, a forward search reports all. -/
theorem search_complete :
    let t := (TermHost.new plain 10 2 100).advance plain [0x61, 0x78, 13]
    Complete plain "x" true ['x'] t := by
  intro t
  have ht : Fits plain t := by decide +kernel
  have hregex : plain.regex "x" = some ['x'] := by decide +kernel
  have hN := plain_nearest ['x'] t.term
  rw [complete_iff plain_lawful plain_lawfulSearch (by decide) hregex ht hN]
  intro m hm
  rcases Scan.Meets.exists_find hm with ⟨o, hfind⟩
  have hstart := (hN.find_has true hfind).1
  have hcursor : (plain.grid t.term).cursor = (plain.grid t.term).first := by decide +kernel
  have hlast : t.term.endOf ['x'] (plain.grid t.term).last = none := by decide +kernel
  simp only [Seen, if_true, hlast, hcursor]
  exact Grid.first_le hstart

end TermHost

end RataShell.Term
