import RataShell.Control.CodeUnits
import RataShell.Control.PaintRuns

/-!
# The text of a row

The strings that `DrawEvent` hands to GDI, read as the code points that they spell.
A cell has a whole code point, and one unit of the string is made of it.

* `length_flatMap_points`: as many code points are spelled as there are cells, where
  each is one unit.
* `spelled_iff`: the rows whose text is the one that was to be shown.
-/

namespace RataShell.Painting

open Cursor (Painter)
open Input (points)
open Term (HostCell RenderSnapshot rowOf)

variable {p : Painter} (row : Nat)

/-- The units of a call with their advances. -/
def Call.units : Call → List (UInt16 × Nat)
  | .extTextOut _ _ _ text dx _ _ _ => text.zip dx
  | .fillRect _ _ => []

/-- There is one advance for each unit. -/
def Call.OneEach : Call → Prop
  | .extTextOut _ _ _ text dx _ _ _ => dx.length = text.length
  | .fillRect _ _ => True

variable (p) in
/-- The code point that a cell is to show, and its width. -/
def cellPoint (c : HostCell) : Nat × Nat :=
  (if c.ch = 0 then 0x20 else c.ch.toNat, advanceOf p c)

variable (p) in
/-- The calls have one advance for each unit, and what they spell are the code points
of the cells, each as wide as its cell. -/
def Spelled (drawn : List Call) (cells : List HostCell) : Prop :=
  (∀ d ∈ drawn, d.OneEach) ∧
    drawn.flatMap (fun d => points d.units) = (drawnFrom 0 cells).map fun q => cellPoint p q.2

theorem mem_drawnFrom {cells : List HostCell} {x : Nat} {c : HostCell} :
    (∃ k, (k, c) ∈ drawnFrom x cells) ↔ c ∈ cells ∧ c.width ≠ 0 := by
  induction cells generalizing x with
  | nil => simp [drawnFrom]
  | cons d cells ih =>
      unfold drawnFrom
      split
      · rename_i hd
        rw [ih, List.mem_cons]
        constructor
        · rintro ⟨hmem, hwidth⟩
          exact ⟨.inr hmem, hwidth⟩
        · rintro ⟨rfl | hmem, hwidth⟩
          · exact absurd hd hwidth
          · exact ⟨hmem, hwidth⟩
      · rename_i hd
        simp only [List.mem_cons, Prod.mk.injEq, exists_or, exists_eq_left, ih]
        constructor
        · rintro (rfl | ⟨hmem, hwidth⟩)
          · exact ⟨.inl rfl, hd⟩
          · exact ⟨.inr hmem, hwidth⟩
        · rintro ⟨rfl | hmem, hwidth⟩
          · exact .inl rfl
          · exact .inr ⟨hmem, hwidth⟩

/-- A cell whose character is one unit shows it. -/
theorem unitOf_char {c : HostCell} (hscalar : c.ch.toNat.isValidChar)
    (hunit : c.ch.toNat ≤ 0xFFFF) :
    Input.isHigh (unitOf c) = false ∧
      Input.unitPoint (unitOf c) = if c.ch = 0 then 0x20 else c.ch.toNat := by
  have hspace : Input.isHigh 0x20 = false ∧ Input.unitPoint 0x20 = 0x20 := by decide
  unfold unitOf
  split
  · rename_i hch
    have hchar : c.ch.toUInt16 = .ofNat (Char.ofNat c.ch.toNat).toNat := by
      rw [Utf8.toNat_ofNat hscalar]
      rfl
    have hlt : (Char.ofNat c.ch.toNat).toNat < 0x10000 := by
      rw [Utf8.toNat_ofNat hscalar]
      omega
    rw [if_neg hch.1, hchar, Input.unitPoint_char hlt]
    exact ⟨(Input.utf16Char_unit hlt).2.1, Utf8.toNat_ofNat hscalar⟩
  · rename_i hch
    rw [not_and_or, not_not, not_not] at hch
    refine ⟨hspace.1, hspace.2.trans ?_⟩
    rcases hch with hzero | hblank
    · rw [if_pos hzero]
    · rw [hblank]
      decide

theorem points_cells {l : List (Nat × HostCell)}
    (hl : ∀ q ∈ l, q.2.ch.toNat.isValidChar ∧ q.2.ch.toNat ≤ 0xFFFF) :
    points (l.map fun q => (unitOf q.2, advanceOf p q.2)) = l.map fun q => cellPoint p q.2 := by
  induction l with
  | nil => rfl
  | cons q l ih =>
      rw [List.forall_mem_cons] at hl
      rcases unitOf_char hl.1.1 hl.1.2 with ⟨hhigh, hpoint⟩
      rw [List.map_cons, Input.points_cons hhigh, ih hl.2, hpoint]
      rfl

theorem units_runCall (g : Group p.colors) :
    (runCall p row g).units = g.cells.map fun q => (unitOf q.2, advanceOf p q.2) := by
  unfold runCall Call.units
  simp only
  rw [List.zip_map']

/-- A character above U+FFFF is one code point of two units, so that the text has fewer
code points than cells. -/
theorem length_flatMap_points (groups : List (Group p.colors)) :
    ((groups.map (runCall p row)).flatMap fun d => points d.units).length +
        ((groups.map (runCall p row)).flatMap fun d => points d.units).countP
          (fun q => decide (0xFFFF < q.1)) =
      (groups.flatMap Group.cells).length := by
  induction groups with
  | nil => rfl
  | cons g groups ih =>
      have hlength := Input.length_points (runCall p row g).units
      rw [units_runCall row g, List.length_map] at hlength
      rw [List.map_cons, List.flatMap_cons, List.flatMap_cons, List.length_append,
        List.length_append, List.countP_append, units_runCall row g]
      omega

/-- Groups of cells whose characters are one unit each spell these. -/
theorem points_groups {groups : List (Group p.colors)}
    (hcells : ∀ q ∈ groups.flatMap Group.cells,
      q.2.ch.toNat.isValidChar ∧ q.2.ch.toNat ≤ 0xFFFF) :
    (groups.map (runCall p row)).flatMap (fun d => points d.units) =
      (groups.flatMap Group.cells).map fun q => cellPoint p q.2 := by
  induction groups with
  | nil => rfl
  | cons g groups ih =>
      rw [List.flatMap_cons, List.forall_mem_append] at hcells
      rw [List.map_cons, List.flatMap_cons, List.flatMap_cons, List.map_append, units_runCall,
        points_cells hcells.1, ih hcells.2]

/-- The text of a row is right exactly where each character is one unit. -/
theorem spelled_groups {groups : List (Group p.colors)} {cells : List HostCell}
    (hgroups : groups.flatMap Group.cells = drawnFrom 0 cells)
    (hscalar : ∀ c ∈ cells, c.ch.toNat.isValidChar) :
    Spelled p (groups.map (runCall p row)) cells ↔
      ∀ c ∈ cells, c.width ≠ 0 → c.ch.toNat ≤ 0xFFFF := by
  constructor
  · rintro ⟨_, hspell⟩ c hc hwidth
    -- as many are spelled as there are cells, so no two units were one of them
    have hlength := length_flatMap_points row groups
    rw [hspell, List.length_map, hgroups] at hlength
    have hnone := List.countP_eq_zero.1 (by omega : ((drawnFrom 0 cells).map fun q =>
      cellPoint p q.2).countP (fun q => decide (0xFFFF < q.1)) = 0)
    rcases mem_drawnFrom.2 ⟨hc, hwidth⟩ with ⟨k, hk⟩
    have hpoint := hnone _ (List.mem_map_of_mem hk)
    simp only [cellPoint, decide_eq_true_eq, Nat.not_lt] at hpoint
    split at hpoint
    · rename_i hzero
      rw [hzero]
      decide
    · exact hpoint
  · intro hunit
    have hcells : ∀ q ∈ drawnFrom 0 cells, q.2.ch.toNat.isValidChar ∧ q.2.ch.toNat ≤ 0xFFFF := by
      intro q hq
      have hmem := mem_drawnFrom.1 ⟨q.1, hq⟩
      exact ⟨hscalar _ hmem.1, hunit _ hmem.1 hmem.2⟩
    refine ⟨fun d hd => ?_, ?_⟩
    · rcases List.mem_map.1 hd with ⟨g, _, rfl⟩
      simp [runCall, Call.OneEach]
    · rw [← hgroups] at hcells ⊢
      exact points_groups row hcells

/-- The rows of an event whose text is right. -/
theorem spelled_iff (p : Painter) {ev : RenderSnapshot}
    (hscalar : ∀ c ∈ ev.cells, c.ch.toNat.isValidChar) :
    ∃ calls, drawText p ev = some calls ∧ calls.length = ev.rows.toNat ∧
      ∀ y < ev.rows.toNat, ∃ drawn, calls[y]? = some drawn ∧
        (Spelled p drawn (rowOf ev.cols.toNat ev.cells y) ↔
          ∀ c ∈ rowOf ev.cols.toNat ev.cells y, c.width ≠ 0 → c.ch.toNat ≤ 0xFFFF) := by
  rcases drawText_groups p ev with ⟨calls, hdraw, hlength, hcalls⟩
  refine ⟨calls, hdraw, hlength, ?_⟩
  intro y hy
  rcases hcalls y hy with ⟨groups, hcall, hgroups⟩
  have hrow : ∀ c ∈ rowOf ev.cols.toNat ev.cells y, c.ch.toNat.isValidChar := fun c hc =>
    hscalar c (List.mem_of_mem_drop (List.mem_of_mem_take hc))
  exact ⟨_, hcall, spelled_groups y hgroups hrow⟩

/-- U+1F600. -/
def emojiCells : List HostCell := [⟨0x1F600, 0xFFFFFF, 0, 0, 2, 0⟩, ⟨0x20, 0xFFFFFF, 0, 0, 0, 0⟩]

/-- It is shown as U+F600. -/
theorem emoji_misspelled :
    (∀ c ∈ emojiCells, c.ch.toNat.isValidChar) ∧
      ∃ drawn, drawText painter (oneRow emojiCells) = some [drawn] ∧
        drawn.flatMap (fun d => points d.units) = [(0xF600, 16)] ∧
        ¬ Spelled painter drawn emojiCells := by
  refine ⟨by decide, [.extTextOut 0 0 ⟨0, 0, 16, 16⟩ [0xF600] [16] 0xFFFFFF 0 false], ?_, ?_, ?_⟩
  · decide +kernel
  · decide +kernel
  · rintro ⟨_, hspell⟩
    exact absurd hspell (by decide +kernel)

/-- The characters of `wideCells` are one unit each. -/
theorem wideCells_spelled :
    ∃ drawn, drawText painter (oneRow wideCells) = some [drawn] ∧
      Spelled painter drawn (rowOf 3 wideCells 0) := by
  have hscalar : ∀ c ∈ (oneRow wideCells).cells, c.ch.toNat.isValidChar := by decide
  rcases spelled_iff painter hscalar with ⟨calls, hdraw, hlength, hcalls⟩
  rcases hcalls 0 (by decide) with ⟨drawn, hdrawn, hspell⟩
  have hone : calls = [drawn] := eq_singleton hlength hdrawn
  exact ⟨drawn, hone ▸ hdraw, hspell.2 (by decide)⟩

end RataShell.Painting
