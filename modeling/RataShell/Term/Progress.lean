import RataShell.Term.Freshness
import RataShell.Term.Search

/-!
# From one match to the next

Two calls of `search_next` with one pattern in one direction: the second one
starts one cell beside the start of the match of the first, whatever the length
of that match, and whatever moved in between.

* `progress_iff`: when the second match lies beyond the first one.
* `follows_iff`: when a call after output that moves the text up finds the match
  that it would have found without.
-/

namespace RataShell.Term

variable {T R : Type}

/-! ## The direction of a search -/

/-- `q` is `p` or lies beyond it in the direction of a search. -/
def Ahead (forward : Bool) (p q : Point) : Prop := if forward then p ≤ q else q ≤ p

instance (forward : Bool) (p q : Point) : Decidable (Ahead forward p q) :=
  inferInstanceAs (Decidable (if forward then p ≤ q else q ≤ p))

/-- The point of a match that a search comes to first. -/
def Match.near (forward : Bool) (m : Match) : Point := if forward then m.start else m.stop

/-- The point of a match that it comes to last. -/
def Match.far (forward : Bool) (m : Match) : Point := if forward then m.stop else m.start

/-- A match lies strictly beyond another one. -/
def Beyond (forward : Bool) (m m' : Match) : Prop :=
  ¬ Ahead forward (m'.near forward) (m.far forward)

instance (forward : Bool) (m m' : Match) : Decidable (Beyond forward m m') :=
  inferInstanceAs (Decidable (¬ _))

/-- The matches of a text that a search in a direction chooses from. -/
def IsMatch (endOf startOf : Point → Option Point) (forward : Bool) (m : Match) : Prop :=
  if forward then endOf m.start = some m.stop else startOf m.stop = some m.start

instance (endOf startOf : Point → Option Point) (forward : Bool) (m : Match) :
    Decidable (IsMatch endOf startOf forward m) :=
  inferInstanceAs (Decidable (if forward then endOf m.start = some m.stop
    else startOf m.stop = some m.start))

section Direction

variable {forward : Bool} {p q r : Point}

theorem Ahead.refl (forward : Bool) (p : Point) : Ahead forward p p := by
  cases forward <;> exact Point.le_refl p

theorem Ahead.trans (hpq : Ahead forward p q) (hqr : Ahead forward q r) : Ahead forward p r := by
  cases forward with
  | true => exact Point.le_trans hpq hqr
  | false => exact Point.le_trans hqr hpq

theorem Ahead.antisymm (hpq : Ahead forward p q) (hqp : Ahead forward q p) : p = q := by
  cases forward with
  | true => exact Point.le_antisymm hpq hqp
  | false => exact Point.le_antisymm hqp hpq

/-- Nothing is beyond the edge. -/
theorem ahead_edge {g : Grid} (hp : g.Has p) : Ahead forward p (edge g forward) := by
  cases forward with
  | true => exact Grid.le_last hp
  | false => exact Grid.first_le hp

/-- The point beside `p` in the direction of a search. -/
def Grid.beside (g : Grid) (forward : Bool) (p : Point) : Point :=
  if forward then g.succ p else g.pred p

theorem Grid.beside_edge (g : Grid) (forward : Bool) :
    g.beside forward (edge g forward) = edge g forward := by
  cases forward with
  | true => exact Grid.succ_last
  | false => exact Grid.pred_first

/-- Short of the edge, what is at the point beside `p` or beyond is beyond `p`. -/
theorem ahead_beside_iff {g : Grid} (hp : g.Has p) (hq : g.Has q) (hedge : p ≠ edge g forward) :
    Ahead forward (g.beside forward p) q ↔ ¬ Ahead forward q p := by
  cases forward with
  | true =>
      constructor
      · intro hle hqp
        exact Grid.succ_ne hedge
          (Point.le_antisymm (Grid.le_succ p) (Point.le_trans hle hqp))
      · intro hnot
        have hle := (Point.le_total p q).resolve_right hnot
        exact Grid.succ_le hp hq hle fun heq => hnot (heq ▸ Point.le_refl q)
  | false =>
      constructor
      · intro hle hpq
        exact Grid.pred_ne hedge
          (Point.le_antisymm (Grid.pred_le p) (Point.le_trans hpq hle))
      · intro hnot
        have hle := (Point.le_total p q).resolve_left hnot
        exact Grid.le_pred hp hq hle fun heq => hnot (heq ▸ Point.le_refl q)

end Direction

/-! ## The nearest match -/

section Nearest

variable {A : Alacritty T R} {regex : R} {t : T} {endOf startOf : Point → Option Point}
  {forward : Bool} {o : Point} {m : Match}

theorem IsMatch.has (hN : Nearest A regex t endOf startOf)
    (hm : IsMatch endOf startOf forward m) :
    (A.grid t).Has m.start ∧ (A.grid t).Has m.stop ∧ m.start ≤ m.stop := by
  cases forward with
  | true => exact hN.endOf_has _ _ hm
  | false => exact hN.startOf_has _ _ hm

theorem IsMatch.near_has (hN : Nearest A regex t endOf startOf)
    (hm : IsMatch endOf startOf forward m) : (A.grid t).Has (m.near forward) := by
  cases forward with
  | true => exact (hm.has hN).1
  | false => exact (hm.has hN).2.1

/-- A search finds the nearest of the matches ahead. -/
theorem find_iff (hN : Nearest A regex t endOf startOf) :
    (scanner A regex forward t).find o = some m ↔
      IsMatch endOf startOf forward m ∧ Ahead forward o (m.near forward) ∧
        ∀ x, IsMatch endOf startOf forward x → Ahead forward o (x.near forward) →
          Ahead forward (m.near forward) (x.near forward) := by
  cases forward with
  | true =>
      refine (hN.right o (A.grid t).last m).trans ⟨?_, ?_⟩
      · rintro ⟨hend, ho, -, hleast⟩
        refine ⟨hend, ho, fun x hx hox => ?_⟩
        exact hleast _ _ hx hox (Grid.le_last (hN.endOf_has _ _ hx).2.1)
      · rintro ⟨hend, ho, hleast⟩
        refine ⟨hend, ho, Grid.le_last (hN.endOf_has _ _ hend).2.1, fun p q hpq hop _ => ?_⟩
        exact hleast ⟨p, q⟩ hpq hop
  | false =>
      refine (hN.left o (A.grid t).first m).trans ⟨?_, ?_⟩
      · rintro ⟨hstart, ho, -, hgreatest⟩
        refine ⟨hstart, ho, fun x hx hox => ?_⟩
        exact hgreatest _ _ hx hox (Grid.first_le (hN.startOf_has _ _ hx).1)
      · rintro ⟨hstart, ho, hgreatest⟩
        refine ⟨hstart, ho, Grid.first_le (hN.startOf_has _ _ hstart).1, fun p q hpq hop _ => ?_⟩
        exact hgreatest ⟨p, q⟩ hpq hop

/-- Where a match is ahead, a search finds one. -/
theorem find_exists (hN : Nearest A regex t endOf startOf) {x : Match}
    (hx : IsMatch endOf startOf forward x) (hox : Ahead forward o (x.near forward)) :
    ∃ m, (scanner A regex forward t).find o = some m := by
  cases forward with
  | true =>
      rcases hN.exists_right hx hox with ⟨m, hm, -⟩
      exact ⟨m, hm⟩
  | false =>
      rcases hN.exists_left hx hox with ⟨m, hm, -⟩
      exact ⟨m, hm⟩

end Nearest

/-! ## The next call -/

namespace TermHost

variable {A : Alacritty T R} {t : TermHost T} {pattern : String} {regex : R} {forward : Bool}
  {endOf startOf : Point → Option Point} {m m' : Match}

theorem target_eq (hpattern : pattern ≠ "") (hregex : A.regex pattern = some regex)
    (hsized : t.Sized A) :
    t.target A pattern forward =
      (scanner A regex forward t.term).find ((t.setPattern pattern).searchFrom A forward) := by
  have hdims : A.dims (t.setPattern pattern).term =
      ((t.setPattern pattern).size.cols, (t.setPattern pattern).size.lines) := by
    rw [setPattern_term, setPattern_size]
    exact hsized
  rw [target, if_neg hpattern, hregex, Option.bind_some, find_eq hdims, setPattern_term]

theorem pattern_ne (hm : t.target A pattern forward = some m) : pattern ≠ "" := by
  rintro rfl
  simp [target] at hm

/-- The call after one that found `m` starts beside the start of `m`. -/
theorem target_next (hA : Lawful A) (hS : LawfulSearch A) (ht : Fits A t)
    (hregex : A.regex pattern = some regex) (hN : Nearest A regex t.term endOf startOf)
    (hm : t.target A pattern forward = some m) :
    (t.searchNext A pattern forward).1.target A pattern forward =
      (scanner A regex forward t.term).find ((A.grid t.term).beside forward m.start) := by
  have hpattern := pattern_ne hm
  rw [target_eq hpattern hregex ht.dims] at hm
  rcases searchNext_step forward hA hS hpattern hregex ht hN with ⟨hsame, hfits, horigin⟩
  rw [target_eq hpattern hregex hfits.dims, scanner_same hsame, horigin,
    Scan.Scanner.after_some hm]
  cases forward <;> rfl

/-- No match begins behind the start of `m` and within it, as a search meets them. -/
def NoneInside (endOf startOf : Point → Option Point) (forward : Bool) (m : Match) : Prop :=
  ∀ x, IsMatch endOf startOf forward x → ¬ Ahead forward (x.near forward) m.start →
    Beyond forward m x

/-- Two calls in a row that find matches find the second one beyond the first
exactly when the first does not start in the outermost cell and, in a search
forward, no other match begins within it. -/
theorem progress_iff (hA : Lawful A) (hS : LawfulSearch A) (ht : Fits A t)
    (hregex : A.regex pattern = some regex) (hN : Nearest A regex t.term endOf startOf)
    (hm : t.target A pattern forward = some m)
    (hm' : (t.searchNext A pattern forward).1.target A pattern forward = some m') :
    Beyond forward m m' ↔
      m.start ≠ edge (A.grid t.term) forward ∧ NoneInside endOf startOf forward m := by
  rw [target_next hA hS ht hregex hN hm] at hm'
  rw [target_eq (pattern_ne hm) hregex ht.dims] at hm
  have hmatch := ((find_iff hN).1 hm).1
  rcases (find_iff hN).1 hm' with ⟨hmatch', hahead, hnearest⟩
  have hhas := hmatch.has hN
  have hhas' := hmatch'.near_has hN
  constructor
  · intro hbeyond
    have hedge : m.start ≠ edge (A.grid t.term) forward := by
      intro heq
      rw [heq, Grid.beside_edge] at hahead
      -- at the edge the second call starts where the first match does
      have hnear := Ahead.antisymm (ahead_edge hhas') hahead
      apply hbeyond
      rw [hnear]
      cases forward with
      | true => exact heq ▸ hhas.2.2
      | false => exact heq ▸ Point.le_refl _
    refine ⟨hedge, fun x hx hxm hxfar => ?_⟩
    have hxahead := (ahead_beside_iff hhas.1 (hx.near_has hN) hedge).2 hxm
    exact hbeyond (Ahead.trans (hnearest x hx hxahead) hxfar)
  · rintro ⟨hedge, hinside⟩
    exact hinside m' hmatch' ((ahead_beside_iff hhas.1 hhas' hedge).1 hahead)

/-- A screen of one line. -/
def line (bytes : List UInt8) : TermHost Plain := (new plain 4 1 10).advance plain bytes

/-- From one `a` of `aba` to the other. -/
theorem plain_progress : Beyond true ⟨⟨0, 0⟩, ⟨0, 0⟩⟩ ⟨⟨0, 2⟩, ⟨0, 2⟩⟩ := by
  have hfits : Fits plain (line [0x61, 0x62, 0x61, 0x0d]) := by decide +kernel
  have hm : (line [0x61, 0x62, 0x61, 0x0d]).target plain "a" true = some ⟨⟨0, 0⟩, ⟨0, 0⟩⟩ := by
    decide +kernel
  have hm' : ((line [0x61, 0x62, 0x61, 0x0d]).searchNext plain "a" true).1.target plain "a" true =
      some ⟨⟨0, 2⟩, ⟨0, 2⟩⟩ := by
    decide +kernel
  exact (progress_iff plain_lawful plain_lawfulSearch hfits (by rfl) (plain_nearest _ _) hm hm').2
    ⟨by decide +kernel, fun _ _ hx => hx⟩

/-- `aa` in `aaa` is found again from its second letter on; and a search to the
left stays at a match in the first cell. -/
theorem search_overlaps :
    ((line [0x61, 0x61, 0x61, 0x0d]).target plain "aa" true = some ⟨⟨0, 0⟩, ⟨0, 1⟩⟩ ∧
      ((line [0x61, 0x61, 0x61, 0x0d]).searchNext plain "aa" true).1.target plain "aa" true =
        some ⟨⟨0, 1⟩, ⟨0, 2⟩⟩ ∧
      ¬ Beyond true ⟨⟨0, 0⟩, ⟨0, 1⟩⟩ ⟨⟨0, 1⟩, ⟨0, 2⟩⟩) ∧
    (line [0x61]).target plain "a" false = some ⟨⟨0, 0⟩, ⟨0, 0⟩⟩ ∧
      ((line [0x61]).searchNext plain "a" false).1.target plain "a" false =
        some ⟨⟨0, 0⟩, ⟨0, 0⟩⟩ ∧
      ¬ Beyond false ⟨⟨0, 0⟩, ⟨0, 0⟩⟩ ⟨⟨0, 0⟩, ⟨0, 0⟩⟩ := by
  decide +kernel

end TermHost

/-! ## Output between two calls -/

/-- The point `k` lines up. -/
def Point.up (k : Nat) (p : Point) : Point := ⟨p.line - k, p.column⟩

/-- The match `k` lines up. -/
def Match.up (k : Nat) (m : Match) : Match := ⟨m.start.up k, m.stop.up k⟩

@[simp] theorem Match.near_up (k : Nat) (forward : Bool) (m : Match) :
    (m.up k).near forward = (m.near forward).up k := by
  cases forward <;> rfl

@[simp] theorem ahead_up_iff {k : Nat} {forward : Bool} {p q : Point} :
    Ahead forward (p.up k) (q.up k) ↔ Ahead forward p q := by
  cases forward <;>
    (show (_ : Point) ≤ _ ↔ (_ : Point) ≤ _
     rw [Point.le_def, Point.le_def]
     simp only [Point.up]
     omega)

namespace TermHost

variable (A : Alacritty T R) (pattern : String) (forward : Bool)

/-- Where a call with a pattern starts. -/
def origin (t : TermHost T) : Point := (t.setPattern pattern).searchFrom A forward

/-- Output that moves the text up by `k` lines into the history, the next match
with it. -/
structure Moved (k : Nat) (IsMatch' : Match → Prop) (t t' : TermHost T) : Prop where
  history : t'.historySize A = t.historySize A + k
  kept : ∀ m, t.target A pattern forward = some m → IsMatch' (m.up k)

/-- A match ahead of where the text has moved the origin is one of the text before
the output, or not nearer than the next match. -/
def NoNearer (k : Nat) (IsMatch IsMatch' : Match → Prop) (t : TermHost T) : Prop :=
  ∀ x', IsMatch' x' → Ahead forward ((t.origin A pattern forward).up k) (x'.near forward) →
    (∃ x, IsMatch x ∧ x'.near forward = (x.near forward).up k) ∨
      ∃ m, t.target A pattern forward = some m ∧
        Ahead forward ((m.near forward).up k) (x'.near forward)

/-- No match lies between where the text has moved the origin and where the next
call starts. -/
def NoneBetween (k : Nat) (IsMatch' : Match → Prop) (t t' : TermHost T) : Prop :=
  ∀ x', IsMatch' x' →
    (Ahead forward ((t.origin A pattern forward).up k) (x'.near forward) ↔
      Ahead forward (t'.origin A pattern forward) (x'.near forward))

variable {A pattern forward} {k : Nat} {t t' : TermHost T} {regex : R}
  {endOf startOf endOf' startOf' : Point → Option Point}

/-- Without a pattern nothing is found. -/
theorem target_of_invalid (hpattern : pattern = "" ∨ A.regex pattern = none) :
    t.target A pattern forward = none := by
  rcases hpattern with rfl | hregex
  · simp [target]
  · simp [target, hregex]

/-- A call after the output finds the match that it would have found before
exactly when no match lies between the moved origin and its own. -/
theorem target_moved_iff (hpattern : pattern ≠ "") (hregex : A.regex pattern = some regex)
    (hsized : t.Sized A) (hsized' : t'.Sized A)
    (hN : Nearest A regex t.term endOf startOf) (hN' : Nearest A regex t'.term endOf' startOf')
    (hmoved : Moved A pattern forward k (IsMatch endOf' startOf' forward) t t')
    (hnearer : NoNearer A pattern forward k (IsMatch endOf startOf forward)
      (IsMatch endOf' startOf' forward) t) :
    t'.target A pattern forward = (t.target A pattern forward).map (Match.up k) ↔
      NoneBetween A pattern forward k (IsMatch endOf' startOf' forward) t t' := by
  have htarget : t.target A pattern forward = _ := target_eq hpattern hregex hsized
  have htarget' : t'.target A pattern forward = _ := target_eq hpattern hregex hsized'
  -- what is ahead of the moved origin is not nearer than the next match, moved
  have hnext : ∀ x', IsMatch endOf' startOf' forward x' →
      Ahead forward ((t.origin A pattern forward).up k) (x'.near forward) →
      ∃ m, t.target A pattern forward = some m ∧
        Ahead forward ((m.up k).near forward) (x'.near forward) := by
    intro x' hx' hahead
    rcases hnearer x' hx' hahead with ⟨x, hx, hnear⟩ | ⟨m, hm, hle⟩
    · rw [hnear, ahead_up_iff] at hahead
      rcases find_exists hN hx hahead with ⟨m, hm⟩
      refine ⟨m, htarget.trans hm, ?_⟩
      rw [hnear, Match.near_up, ahead_up_iff]
      exact ((find_iff hN).1 hm).2.2 x hx hahead
    · refine ⟨m, hm, ?_⟩
      rw [Match.near_up]
      exact hle
  constructor
  · intro heq x' hx'
    constructor
    · intro hahead
      rcases hnext x' hx' hahead with ⟨m, hm, hle⟩
      rw [hm, Option.map_some, htarget', find_iff hN'] at heq
      exact Ahead.trans heq.2.1 hle
    · intro hahead
      rcases find_exists hN' hx' hahead with ⟨m', hm'⟩
      rw [htarget'.trans hm', eq_comm, Option.map_eq_some_iff] at heq
      rcases heq with ⟨m, hm, rfl⟩
      -- the match found is one ahead of the origin before, and `x'` is beyond it
      have hle := ((find_iff hN').1 hm').2.2 x' hx' hahead
      have horigin := ((find_iff hN).1 (htarget.symm.trans hm)).2.1
      rw [Match.near_up] at hle
      exact Ahead.trans (ahead_up_iff.2 horigin) hle
  · intro hbetween
    cases hm : t.target A pattern forward with
    | none =>
        rw [Option.map_none]
        by_contra hsome
        rcases Option.ne_none_iff_exists'.1 hsome with ⟨m', hm'⟩
        rcases (find_iff hN').1 (htarget'.symm.trans hm') with ⟨hmatch, hahead, -⟩
        rcases hnext m' hmatch ((hbetween m' hmatch).2 hahead) with ⟨m, hm'', -⟩
        rw [hm] at hm''
        cases hm''
    | some m =>
        have hkept := hmoved.kept m hm
        have horigin := ((find_iff hN).1 (htarget.symm.trans hm)).2.1
        rw [Option.map_some, htarget', find_iff hN']
        refine ⟨hkept, (hbetween _ hkept).1 ?_, fun x' hx' hahead => ?_⟩
        · rw [Match.near_up]
          exact ahead_up_iff.2 horigin
        · rcases hnext x' hx' ((hbetween x' hx').2 hahead) with ⟨m'', hm'', hle⟩
          rw [hm] at hm''
          cases hm''
          exact hle

/-- Two calls of `search_next` with output in between that moves the text up: the
second one finds the match that it would have found without the output exactly
when none lies between the origin moved with the text and the remembered one. -/
theorem follows_iff (hA : Lawful A) (hsized : t.Sized A) (bytes : List UInt8)
    (hN : ∀ regex, A.regex pattern = some regex →
      Nearest A regex (t.searchNext A pattern forward).1.term endOf startOf)
    (hN' : ∀ regex, A.regex pattern = some regex →
      Nearest A regex ((t.searchNext A pattern forward).1.advance A bytes).term endOf' startOf')
    (hmoved : Moved A pattern forward k (IsMatch endOf' startOf' forward)
      (t.searchNext A pattern forward).1 ((t.searchNext A pattern forward).1.advance A bytes))
    (hnearer : NoNearer A pattern forward k (IsMatch endOf startOf forward)
      (IsMatch endOf' startOf' forward) (t.searchNext A pattern forward).1) :
    ((t.searchNext A pattern forward).1.advance A bytes).target A pattern forward =
        ((t.searchNext A pattern forward).1.target A pattern forward).map (Match.up k) ↔
      (pattern = "" ∨ A.regex pattern = none) ∨
        NoneBetween A pattern forward k (IsMatch endOf' startOf' forward)
          (t.searchNext A pattern forward).1
          ((t.searchNext A pattern forward).1.advance A bytes) := by
  by_cases hpattern : pattern = "" ∨ A.regex pattern = none
  · simp [target_of_invalid hpattern, hpattern]
  · rw [or_iff_right hpattern]
    rw [not_or] at hpattern
    rcases Option.ne_none_iff_exists'.1 hpattern.2 with ⟨regex, hregex⟩
    have hsized' := Session.sized_call hA (.searchNext pattern forward) hsized
    exact target_moved_iff hpattern.1 hregex hsized' ((hA.advance_dims bytes _).trans hsized')
      (hN regex hregex) (hN' regex hregex) hmoved hnearer

end TermHost

/-- The points where the plain terminal has a match. -/
def Plain.nears (word : List Char) (forward : Bool) (p : Plain) : List Point :=
  ((List.range p.grid.count).map p.grid.point).filter fun q =>
    (if forward then p.endOf word q else p.startOf word q).isSome

theorem Plain.near_mem {p : Plain} {word : List Char} {forward : Bool} {m : Match}
    (hm : IsMatch (p.endOf word) (p.startOf word) forward m) :
    m.near forward ∈ p.nears word forward := by
  have hhas := hm.near_has (plain_nearest word p)
  refine List.mem_filter.2 ⟨List.mem_map.2 ⟨_, ?_, Grid.point_rank hhas⟩, ?_⟩
  · exact List.mem_range.2 (Grid.rank_lt_count hhas)
  · cases forward with
    | true => exact Option.isSome_iff_exists.2 ⟨_, hm⟩
    | false => exact Option.isSome_iff_exists.2 ⟨_, hm⟩

namespace TermHost

/-- The host between two calls. -/
def between (pattern : String) (forward : Bool) (t : TermHost Plain) : TermHost Plain :=
  (t.searchNext plain pattern forward).1

/-- The matches of `a` in the plain terminal. -/
abbrev IsA (forward : Bool) (t : TermHost Plain) : Match → Prop :=
  IsMatch (t.term.endOf ['a']) (t.term.startOf ['a']) forward

/-- One line has moved up, and brought no nearer `a`. -/
def MovedOne (forward : Bool) (t t' : TermHost Plain) : Prop :=
  Moved plain "a" forward 1 (IsA forward t') t t' ∧
    NoNearer plain "a" forward 1 (IsA forward t) (IsA forward t') t

theorem movedOne {forward : Bool} {t t' : TermHost Plain} {m : Match}
    (hhistory : t'.historySize plain = t.historySize plain + 1)
    (hm : t.target plain "a" forward = some m) (hkept : IsA forward t' (m.up 1))
    (hnearer : ∀ q ∈ t'.term.nears ['a'] forward,
      Ahead forward ((t.origin plain "a" forward).up 1) q →
        Ahead forward ((m.near forward).up 1) q) : MovedOne forward t t' := by
  refine ⟨⟨hhistory, fun x hx => ?_⟩, fun x' hx' hahead => ?_⟩
  · cases hm.symm.trans hx
    exact hkept
  · exact .inr ⟨m, hm, hnearer _ (Plain.near_mem hx') hahead⟩

/-- Four lines on a screen of two, the third one empty, after three searches back
to the first one. -/
def fourLines : TermHost Plain :=
  ((((new plain 2 2 10).advance plain
    [0x61, 0x0a, 0x0d, 0x61, 0x0a, 0x0d, 0x0a, 0x0d, 0x61]).between "a" false).between
      "a" false).between "a" false

/-- On from the second line to the fourth, with a line feed in between. -/
theorem plain_follows :
    ((fourLines.searchNext plain "a" true).1.advance plain [0x0a]).target plain "a" true =
      ((fourLines.searchNext plain "a" true).1.target plain "a" true).map (Match.up 1) := by
  have hnearest : ∀ (t : TermHost Plain) word, plain.regex "a" = some word →
      Nearest plain word t.term (t.term.endOf ['a']) (t.term.startOf ['a']) := by
    intro t word hword
    cases hword
    exact plain_nearest _ _
  have hmoved : MovedOne true (fourLines.between "a" true)
      ((fourLines.between "a" true).advance plain [0x0a]) :=
    movedOne (m := ⟨⟨1, 0⟩, ⟨1, 0⟩⟩) (by decide +kernel) (by decide +kernel) (by decide +kernel)
      (by decide +kernel)
  have hbetween : ∀ q ∈ ((fourLines.between "a" true).advance plain [0x0a]).term.nears ['a'] true,
      Ahead true (((fourLines.between "a" true).origin plain "a" true).up 1) q ↔
        Ahead true (((fourLines.between "a" true).advance plain [0x0a]).origin plain "a" true)
          q := by
    decide +kernel
  exact (follows_iff plain_lawful (t := fourLines) (by rfl) [0x0a] (k := 1)
    (hnearest _) (hnearest _) hmoved.1 hmoved.2).2
      (.inr fun x' hx' => hbetween _ (Plain.near_mem hx'))

/-- After a line feed, a search to the left finds the match that it has found
before, and one to the right misses the match that follows. -/
theorem search_lags :
    (MovedOne false ((line [0x61, 0x62, 0x61]).between "a" false)
        (((line [0x61, 0x62, 0x61]).between "a" false).advance plain [0x0a]) ∧
      (line [0x61, 0x62, 0x61]).target plain "a" false = some ⟨⟨0, 2⟩, ⟨0, 2⟩⟩ ∧
      ((line [0x61, 0x62, 0x61]).between "a" false).target plain "a" false =
        some ⟨⟨0, 0⟩, ⟨0, 0⟩⟩ ∧
      (((line [0x61, 0x62, 0x61]).between "a" false).advance plain [0x0a]).target plain "a" false =
        some (Match.up 1 ⟨⟨0, 2⟩, ⟨0, 2⟩⟩)) ∧
    MovedOne true ((line [0x61, 0x62, 0x61, 0x0d]).between "a" true)
        (((line [0x61, 0x62, 0x61, 0x0d]).between "a" true).advance plain [0x0a]) ∧
      ((line [0x61, 0x62, 0x61, 0x0d]).between "a" true).target plain "a" true =
        some ⟨⟨0, 2⟩, ⟨0, 2⟩⟩ ∧
      (((line [0x61, 0x62, 0x61, 0x0d]).between "a" true).advance plain [0x0a]).target plain "a"
        true = none := by
  refine ⟨⟨?_, by decide +kernel, by decide +kernel, by decide +kernel⟩, ?_, by decide +kernel,
    by decide +kernel⟩
  · exact movedOne (m := ⟨⟨0, 0⟩, ⟨0, 0⟩⟩) (by decide +kernel) (by decide +kernel)
      (by decide +kernel) (by decide +kernel)
  · exact movedOne (m := ⟨⟨0, 2⟩, ⟨0, 2⟩⟩) (by decide +kernel) (by decide +kernel)
      (by decide +kernel) (by decide +kernel)

end TermHost

end RataShell.Term
