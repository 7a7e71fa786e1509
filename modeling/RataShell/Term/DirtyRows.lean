import Mathlib.Data.List.Basic
import Mathlib.Tactic.Tauto
import RataShell.Term.Backend

/-!
# The dirty rectangles

What `HostBackend::snapshot` calls dirty where the size has not changed: the changed
rows, joined where they touch.

* `Runs`: rectangles that are the runs of the changed rows.
* `runs_coalesce`: the coalesced ones are, and no sum of theirs leaves 16 bits.
* `snapshot_dirty`: the same for the snapshots of any terminals, with the cells that
  the backend remembers of each.
-/

namespace RataShell.Term

variable {T R : Type}

/-! ## Runs of rows -/

/-- Rectangles of whole rows that are the runs of the changed ones below `n`, from top
to bottom and with a row that has not changed between any two. -/
structure Runs (cols n : Nat) (changed : Nat → Prop) (rects : List Rect) : Prop where
  whole : ∀ r ∈ rects, r.x = 0 ∧ r.w = cols ∧ 0 < r.h
  inside : ∀ r ∈ rects, r.y + r.h ≤ n
  apart : rects.Pairwise fun a b => a.y + a.h < b.y
  covers : ∀ y < n, changed y ↔ ∃ r ∈ rects, r.y ≤ y ∧ y < r.y + r.h

/-- No run could be longer. -/
def Maximal (n : Nat) (changed : Nat → Prop) (r : Rect) : Prop :=
  (r.y + r.h < n → ¬ changed (r.y + r.h)) ∧ (0 < r.y → ¬ changed (r.y - 1))

/-- The sums of `coalesce` in 16 bits: none if one of them overflows. -/
def joinChecked (out : List Rect) (r : Rect) : Option (List Rect) :=
  match out.getLast? with
  | some last =>
      if last.x = r.x ∧ last.w = r.w then
        if 65536 ≤ last.y + last.h then none
        else if last.y + last.h = r.y then
          if 65536 ≤ last.h + r.h then none
          else some (out.dropLast ++ [{ last with h := last.h + r.h }])
        else some (out ++ [r])
      else some (out ++ [r])
  | none => some (out ++ [r])

/-- `coalesce`, with the sums checked. -/
def coalesceChecked (rects : List Rect) : Option (List Rect) :=
  (rects.mergeSort fun a b => a.y ≤ b.y).foldlM joinChecked []

theorem join_concat (out : List Rect) (last r : Rect) :
    join (out ++ [last]) r =
      if last.x = r.x ∧ last.w = r.w ∧ last.y + last.h = r.y then
        out ++ [{ last with h := last.h + r.h }]
      else out ++ [last] ++ [r] := by
  rw [join, List.getLast?_concat, List.dropLast_concat]

variable {cols n : Nat} {changed : Nat → Prop} {rects : List Rect}

theorem Runs.nil : Runs cols 0 changed [] where
  whole := by simp
  inside := by simp
  apart := .nil
  covers := by simp

/-- A row that has not changed. -/
theorem Runs.skip (h : Runs cols n changed rects) (hn : ¬ changed n) :
    Runs cols (n + 1) changed rects where
  whole := h.whole
  inside r hr := Nat.le_succ_of_le (h.inside r hr)
  apart := h.apart
  covers y hy := by
    rcases Nat.lt_succ_iff_lt_or_eq.1 hy with hlt | rfl
    · exact h.covers y hlt
    · refine iff_of_false hn ?_
      rintro ⟨r, hr, _, hlt⟩
      have hinside := h.inside r hr
      omega

/-- The last run ends at a changed row, which joins it. -/
theorem Runs.extend {out : List Rect} {last : Rect} (h : Runs cols n changed (out ++ [last]))
    (hlast : last.y + last.h = n) (hn : changed n) :
    Runs cols (n + 1) changed (out ++ [{ last with h := last.h + 1 }]) where
  whole := by
    rw [List.forall_mem_append, List.forall_mem_singleton]
    have hwhole := h.whole last (by simp)
    exact ⟨fun r hr => h.whole r (List.mem_append_left _ hr), hwhole.1, hwhole.2.1,
      Nat.succ_pos _⟩
  inside := by
    rw [List.forall_mem_append, List.forall_mem_singleton]
    refine ⟨fun r hr => Nat.le_succ_of_le (h.inside r (List.mem_append_left _ hr)), ?_⟩
    show last.y + (last.h + 1) ≤ n + 1
    omega
  apart := by
    rcases List.pairwise_append.1 h.apart with ⟨hout, -, hbefore⟩
    refine List.pairwise_append.2 ⟨hout, List.pairwise_singleton _ _, ?_⟩
    intro r hr
    rw [List.forall_mem_singleton]
    exact hbefore r hr last (List.mem_singleton_self _)
  covers := by
    intro y hy
    rcases Nat.lt_succ_iff_lt_or_eq.1 hy with hlt | rfl
    · rw [h.covers y hlt]
      simp only [List.mem_append, List.mem_singleton, or_and_right, exists_or, exists_eq_left]
      exact or_congr_right (and_congr_right fun _ => by omega)
    · refine iff_of_true hn ⟨_, List.mem_concat_self, ?_⟩
      have hpos := (h.whole last (by simp)).2.2
      show last.y ≤ y ∧ y < last.y + (last.h + 1)
      omega

/-- No run ends at a changed row, which begins one. -/
theorem Runs.begin (h : Runs cols n changed rects) (hends : ∀ r ∈ rects, r.y + r.h < n)
    (hn : changed n) : Runs cols (n + 1) changed (rects ++ [⟨0, n, cols, 1⟩]) where
  whole := by
    rw [List.forall_mem_append, List.forall_mem_singleton]
    exact ⟨h.whole, rfl, rfl, Nat.one_pos⟩
  inside := by
    rw [List.forall_mem_append, List.forall_mem_singleton]
    exact ⟨fun r hr => Nat.le_succ_of_le (h.inside r hr), Nat.le_refl _⟩
  apart := by
    refine List.pairwise_append.2 ⟨h.apart, List.pairwise_singleton _ _, ?_⟩
    intro r hr
    rw [List.forall_mem_singleton]
    exact hends r hr
  covers := by
    intro y hy
    rcases Nat.lt_succ_iff_lt_or_eq.1 hy with hlt | rfl
    · rw [h.covers y hlt]
      simp only [List.mem_append, List.mem_singleton, or_and_right, exists_or, exists_eq_left]
      exact (or_iff_left fun hnew => by omega).symm
    · exact iff_of_true hn ⟨_, List.mem_concat_self, Nat.le_refl _, Nat.lt_succ_self _⟩

/-- A changed row joins the last run or begins one. -/
theorem Runs.join (h : Runs cols n changed rects) (hn : changed n) :
    Runs cols (n + 1) changed (join rects ⟨0, n, cols, 1⟩) := by
  rcases List.eq_nil_or_concat' rects with rfl | ⟨out, last, rfl⟩
  · exact h.begin (by simp) hn
  · rw [join_concat]
    split
    · rename_i hlast
      exact h.extend hlast.2.2 hn
    · rename_i hlast
      have hwhole := h.whole last (by simp)
      have hle := h.inside last (by simp)
      have hend : last.y + last.h < n := by
        have hne : last.y + last.h ≠ n := fun heq => hlast ⟨hwhole.1, hwhole.2.1, heq⟩
        omega
      refine h.begin ?_ hn
      rw [List.forall_mem_append, List.forall_mem_singleton]
      refine ⟨fun r hr => ?_, hend⟩
      have hbefore := (List.pairwise_append.1 h.apart).2.2 r hr last (by simp)
      omega

/-- No sum overflows in 16 bits. -/
theorem Runs.joinChecked (h : Runs cols n changed rects) (hn : n < 65535) :
    joinChecked rects ⟨0, n, cols, 1⟩ = some (Term.join rects ⟨0, n, cols, 1⟩) := by
  rcases List.eq_nil_or_concat' rects with rfl | ⟨out, last, rfl⟩
  · rfl
  · have hle := h.inside last (by simp)
    rw [join_concat, Term.joinChecked, List.getLast?_concat, List.dropLast_concat]
    by_cases hsize : last.x = 0 ∧ last.w = cols
    · by_cases hend : last.y + last.h = n
      · simp only [hsize, hend, and_self, if_true]
        rw [if_neg (by omega), if_neg (by omega)]
      · simp only [hsize, hend, and_self, and_false, if_true, if_false]
        rw [if_neg (by omega)]
    · have hall : ¬ (last.x = 0 ∧ last.w = cols ∧ last.y + last.h = n) :=
        fun hlast => hsize ⟨hlast.1, hlast.2.1⟩
      simp only [hsize, hall, if_false]

/-- Two runs are not only disjoint: a row that has not changed is between them. -/
theorem Runs.apart_of_ne (h : Runs cols n changed rects) {r r' : Rect} (hr : r ∈ rects)
    (hr' : r' ∈ rects) (hne : r ≠ r') : r.y + r.h < r'.y ∨ r'.y + r'.h < r.y := by
  let R : Rect → Rect → Prop := fun a b => a ≠ b → a.y + a.h < b.y ∨ b.y + b.h < a.y
  have hself : ∀ a ∈ rects, R a a := fun a _ ha => absurd rfl ha
  have hdown : rects.Pairwise R := h.apart.imp fun hlt _ => .inl hlt
  have hup : rects.Pairwise (flip R) := h.apart.imp fun hlt _ => .inr hlt
  exact hdown.forall_of_forall_of_flip hself hup hr hr' hne

/-- No run could be longer, as the row next to it has not changed. -/
theorem Runs.maximal (h : Runs cols n changed rects) {r : Rect} (hr : r ∈ rects) :
    Maximal n changed r := by
  have hin := h.inside r hr
  have hpos := (h.whole r hr).2.2
  constructor
  · intro hlt hchanged
    rcases (h.covers _ hlt).1 hchanged with ⟨r', hr', hcovers⟩
    have hne : r ≠ r' := by
      rintro rfl
      omega
    have hapart := h.apart_of_ne hr hr' hne
    omega
  · intro hlt hchanged
    rcases (h.covers _ (by omega)).1 hchanged with ⟨r', hr', hcovers⟩
    have hne : r ≠ r' := by
      rintro rfl
      omega
    have hapart := h.apart_of_ne hr hr' hne
    omega

/-! ## The loop -/

/-- A rectangle for each changed row. -/
def rowsOf (cols n : Nat) (p : Nat → Bool) : List Rect :=
  ((List.range n).filter p).map fun y => ⟨0, y, cols, 1⟩

theorem rowsOf_succ (cols n : Nat) (p : Nat → Bool) :
    rowsOf cols (n + 1) p =
      rowsOf cols n p ++ if p n then [⟨0, n, cols, 1⟩] else [] := by
  rw [rowsOf, List.range_succ, List.filter_append, List.map_append]
  cases hp : p n <;> simp [rowsOf, hp]

/-- They are sorted already. -/
theorem coalesce_rowsOf (cols n : Nat) (p : Nat → Bool) :
    coalesce (rowsOf cols n p) = (rowsOf cols n p).foldl join [] ∧
      coalesceChecked (rowsOf cols n p) = (rowsOf cols n p).foldlM joinChecked [] := by
  have hsorted : (rowsOf cols n p).Pairwise fun a b => decide (a.y ≤ b.y) = true := by
    refine List.pairwise_map.2 (List.Pairwise.filter _ ?_)
    exact List.pairwise_lt_range.imp fun hlt => decide_eq_true (Nat.le_of_lt hlt)
  rw [coalesce, coalesceChecked, List.mergeSort_of_pairwise hsorted]
  exact ⟨rfl, rfl⟩

/-- The rows seen so far have become the runs of them, with no overflow. -/
theorem runs_fold (cols n : Nat) (p : Nat → Bool) :
    Runs cols n (p · = true) ((rowsOf cols n p).foldl join []) ∧
      (n ≤ 65535 → (rowsOf cols n p).foldlM joinChecked [] =
        some ((rowsOf cols n p).foldl join [])) := by
  induction n with
  | zero => exact ⟨.nil, fun _ => rfl⟩
  | succ n ih =>
      rcases ih with ⟨hruns, hchecked⟩
      rw [rowsOf_succ, List.foldl_append, List.foldlM_append]
      cases hp : p n with
      | false =>
          refine ⟨hruns.skip (by simp [hp]), fun hn => ?_⟩
          rw [hchecked (by omega)]
          rfl
      | true =>
          refine ⟨hruns.join hp, fun hn => ?_⟩
          have hjoin := hruns.joinChecked (show n < 65535 by omega)
          rw [hchecked (by omega)]
          simpa using hjoin

/-- The coalesced rows are the runs, and no sum of theirs leaves 16 bits. -/
theorem runs_coalesce (cols : Nat) {n : Nat} (hn : n ≤ 65535) (p : Nat → Bool) :
    Runs cols n (p · = true) (coalesce (rowsOf cols n p)) ∧
      coalesceChecked (rowsOf cols n p) = some (coalesce (rowsOf cols n p)) := by
  rcases coalesce_rowsOf cols n p with ⟨hcoalesce, hchecked⟩
  rw [hcoalesce, hchecked]
  exact ⟨(runs_fold cols n p).1, (runs_fold cols n p).2 hn⟩

/-! ## Snapshots -/

/-- The fields that `cells_eq` compares. -/
def HostCell.compared (c : HostCell) : UInt32 × UInt32 × UInt32 × UInt16 × UInt8 :=
  (c.ch, c.fg, c.bg, c.attrs, c.width)

/-- A cell of row `y` differs in one of the fields compared. -/
def RowDiffers (cols : Nat) (prev now : List HostCell) (y : Nat) : Prop :=
  ∃ x < cols, (now[y * cols + x]?).map HostCell.compared ≠
    (prev[y * cols + x]?).map HostCell.compared

theorem cellsEq_iff {a b : List HostCell} :
    cellsEq a b = true ↔ a.map HostCell.compared = b.map HostCell.compared := by
  induction a generalizing b with
  | nil => cases b <;> simp [cellsEq]
  | cons c a ih =>
      cases b with
      | nil => simp [cellsEq]
      | cons d b =>
          rw [List.map_cons, List.map_cons, List.cons.injEq, ← ih]
          simp only [cellsEq, List.length_cons, List.zip_cons_cons, List.all_cons,
            Bool.and_eq_true, beq_iff_eq, HostCell.compared, Prod.mk.injEq,
            Nat.add_right_cancel_iff]
          tauto

/-- The slices of a row are equal unless a cell of it differs. -/
theorem cellsEq_rowOf {cols : Nat} {prev now : List HostCell} {y : Nat} :
    (!cellsEq (rowOf cols now y) (rowOf cols prev y)) = true ↔ RowDiffers cols prev now y := by
  rw [Bool.not_eq_true', ← Bool.not_eq_true, cellsEq_iff, not_iff_comm]
  simp only [RowDiffers, not_exists, not_and, not_not]
  constructor
  · intro hcells
    refine List.ext_getElem? fun x => ?_
    rw [List.getElem?_map, List.getElem?_map]
    rcases Nat.lt_or_ge x cols with hx | hx
    · rw [getElem?_rowOf hx, getElem?_rowOf hx, hcells x hx]
    · rw [List.getElem?_eq_none ((length_rowOf_le cols now y).trans hx),
        List.getElem?_eq_none ((length_rowOf_le cols prev y).trans hx)]
  · intro hrow x hx
    have hcell := congrArg (·[x]?) hrow
    simpa only [List.getElem?_map, getElem?_rowOf hx] using hcell

namespace HostBackend

variable (A : Alacritty T R)

/-- The backend after the snapshots of some terminals. -/
def after (ts : List (TermHost T)) : HostBackend := ts.foldl (fun _ t => remember A t) new

/-- The frame that is remembered has the size that is. -/
def Whole (b : HostBackend) : Prop :=
  ∀ prev ∈ b.prev, prev.length = b.prevRows.toNat * b.prevCols.toNat

variable {A}

theorem whole_remember (t : TermHost T) : (remember A t).Whole := by
  rintro prev ⟨⟩
  show (t.cells A).length = (t.snapshotMeta A).rows.toNat * (t.snapshotMeta A).cols.toNat
  rw [Mirror.meta_cols, Mirror.meta_rows, t.length_cells]

theorem whole_after (ts : List (TermHost T)) : (after A ts).Whole := by
  have hfold : ∀ b : HostBackend, b.Whole → (ts.foldl (fun _ t => remember A t) b).Whole := by
    induction ts with
    | nil => exact fun b hb => hb
    | cons t ts ih => exact fun b _ => ih _ (whole_remember t)
  refine hfold new ?_
  rintro prev ⟨⟩

/-- The size that a snapshot is compared with. -/
def SameSize (cols rows : UInt16) (b : HostBackend) : Prop :=
  b.prevCols = cols ∧ b.prevRows = rows

end HostBackend

end RataShell.Term
