import RataShell.Lib.Utf8
import RataShell.Control.Text

/-!
# Code units

The characters of a Delphi string: those above U+FFFF take two code units.

* `utf8Encode_utf16`: the UTF-8 of a string is that of its characters.
* `points`: the code points of a text, with the advances of their units.
-/

namespace RataShell.Input

/-! ## Characters as units -/

/-- The UTF-16 of a character. -/
def utf16Char (c : Char) : Text :=
  if c.toNat < 0x10000 then [.ofNat c.toNat]
  else [.ofNat (0xD800 + (c.toNat - 0x10000) / 1024), .ofNat (0xDC00 + (c.toNat - 0x10000) % 1024)]

/-- The UTF-16 of some characters. -/
def utf16 (s : List Char) : Text := s.flatMap utf16Char

theorem toNat_lt (c : Char) : c.toNat < 0x110000 := by
  have hvalid : c.toNat < 0xD800 ∨ 0xDFFF < c.toNat ∧ c.toNat < 0x110000 := c.valid
  omega

theorem toNat_unit {n : Nat} (hn : n < 0x10000) : (UInt16.ofNat n).toNat = n :=
  UInt16.toNat_ofNat_of_lt' hn

/-- The UTF-8 of a code point, as it is written in Lean. -/
theorem encodePoint_toNat (c : Char) : encodePoint c.toNat = String.utf8EncodeChar c := by
  have hlt := toNat_lt c
  have hval : c.val.toNat = c.toNat := rfl
  unfold encodePoint String.utf8EncodeChar
  simp only [hval]
  generalize c.toNat = v at hlt
  rcases Nat.lt_or_ge v 0x80 with hone | hone
  · rw [if_pos hone, if_pos (show v ≤ 0x7f by omega)]
  · rw [if_neg (Nat.not_lt.2 hone), if_neg (show ¬ v ≤ 0x7f by omega)]
    rcases Nat.lt_or_ge v 0x800 with htwo | htwo
    · rw [if_pos htwo, if_pos (show v ≤ 0x7ff by omega),
        show 0xC0 + v / 64 = v / 64 % 0x20 + 0xc0 by omega, Nat.add_comm 0x80 (v % 64)]
    · rw [if_neg (Nat.not_lt.2 htwo), if_neg (show ¬ v ≤ 0x7ff by omega)]
      rcases Nat.lt_or_ge v 0x10000 with hthree | hthree
      · rw [if_pos hthree, if_pos (show v ≤ 0xffff by omega),
          show 0xE0 + v / 4096 = v / 4096 % 0x10 + 0xe0 by omega,
          Nat.add_comm 0x80 (v / 64 % 64), Nat.add_comm 0x80 (v % 64)]
      · rw [if_neg (Nat.not_lt.2 hthree), if_neg (show ¬ v ≤ 0xffff by omega),
          show 0xF0 + v / 262144 = v / 262144 % 0x08 + 0xf0 by omega,
          Nat.add_comm 0x80 (v / 4096 % 64), Nat.add_comm 0x80 (v / 64 % 64),
          Nat.add_comm 0x80 (v % 64)]

/-- A character that is one unit. -/
theorem utf16Char_unit {c : Char} (hc : c.toNat < 0x10000) :
    utf16Char c = [.ofNat c.toNat] ∧ isHigh (.ofNat c.toNat) = false ∧
      isLow (.ofNat c.toNat) = false := by
  have hvalid : c.toNat < 0xD800 ∨ 0xDFFF < c.toNat ∧ c.toNat < 0x110000 := c.valid
  refine ⟨if_pos hc, ?_, ?_⟩
  · rw [Bool.eq_false_iff, ne_eq, isHigh_iff, toNat_unit hc]
    omega
  · rw [Bool.eq_false_iff, ne_eq, isLow_iff, toNat_unit hc]
    omega

/-- A character that is two. -/
theorem utf16Char_pair {c : Char} (hc : 0x10000 ≤ c.toNat) :
    ∃ u v, utf16Char c = [u, v] ∧ isHigh u = true ∧ isLow v = true ∧
      0x10000 + (u.toNat - 0xD800) * 1024 + (v.toNat - 0xDC00) = c.toNat := by
  have hlt := toNat_lt c
  refine ⟨_, _, if_neg (Nat.not_lt.2 hc), ?_, ?_, ?_⟩
  · rw [isHigh_iff, toNat_unit (by omega)]
    omega
  · rw [isLow_iff, toNat_unit (by omega)]
    omega
  · rw [toNat_unit (by omega), toNat_unit (by omega)]
    omega

theorem encodeUnit_char {c : Char} (hc : c.toNat < 0x10000) :
    encodeUnit (.ofNat c.toNat) = String.utf8EncodeChar c := by
  rcases utf16Char_unit hc with ⟨_, hhigh, hlow⟩
  simp only [encodeUnit, hhigh, hlow, Bool.or_self, Bool.false_eq_true, if_false, toNat_unit hc,
    encodePoint_toNat]

/-- A unit that begins no pair is encoded by itself. -/
theorem utf8Encode_cons {u : UInt16} (hu : isHigh u = false) (t : Text) :
    utf8Encode (u :: t) = encodeUnit u ++ utf8Encode t := by
  cases t with
  | nil => exact (List.append_nil _).symm
  | cons v t => simp [utf8Encode, hu]

/-- The UTF-8 of a string is that of its characters. -/
theorem utf8Encode_utf16 (s : List Char) : utf8Encode (utf16 s) = Utf8.encode s := by
  induction s with
  | nil => rfl
  | cons c s ih =>
      rw [utf16, List.flatMap_cons, ← utf16, Utf8.encode_cons, ← ih]
      rcases Nat.lt_or_ge c.toNat 0x10000 with hc | hc
      · rcases utf16Char_unit hc with ⟨hunit, hhigh, _⟩
        rw [hunit, List.singleton_append, utf8Encode_cons hhigh, encodeUnit_char hc]
      · rcases utf16Char_pair hc with ⟨u, v, hpair, hhigh, hlow, hpoint⟩
        rw [hpair]
        show utf8Encode (u :: v :: utf16 s) = _
        rw [utf8Encode, if_pos (by rw [hhigh, hlow]; rfl), hpoint, encodePoint_toNat]

/-! ## Units as characters -/

/-- The code point of a unit by itself. -/
def unitPoint (u : UInt16) : Nat := if isHigh u || isLow u then 0xFFFD else u.toNat

/-- The code points of a text whose units have advances, each with what its units
advance by. A surrogate without its half gives U+FFFD. -/
def points : List (UInt16 × Nat) → List (Nat × Nat)
  | [] => []
  | [(u, d)] => [(unitPoint u, d)]
  | (u, d) :: (v, e) :: rest =>
      if isHigh u && isLow v then
        (0x10000 + (u.toNat - 0xD800) * 1024 + (v.toNat - 0xDC00), d + e) :: points rest
      else (unitPoint u, d) :: points ((v, e) :: rest)

theorem unitPoint_le (u : UInt16) : unitPoint u ≤ 0xFFFF := by
  have hlt := u.toNat_lt
  unfold unitPoint
  split <;> omega

theorem unitPoint_char {c : Char} (hc : c.toNat < 0x10000) :
    unitPoint (.ofNat c.toNat) = c.toNat := by
  rcases utf16Char_unit hc with ⟨_, hhigh, hlow⟩
  simp only [unitPoint, hhigh, hlow, Bool.or_self, Bool.false_eq_true, if_false, toNat_unit hc]

/-- A unit that begins no pair is a code point by itself. -/
theorem points_cons {u : UInt16} (hu : isHigh u = false) (d : Nat) (l : List (UInt16 × Nat)) :
    points ((u, d) :: l) = (unitPoint u, d) :: points l := by
  rcases l with _ | ⟨⟨v, e⟩, l⟩
  · rfl
  · simp [points, hu]

/-- What is read of a string is its characters. -/
theorem points_utf16 {s : List Char} {l : List (UInt16 × Nat)} (hl : l.map Prod.fst = utf16 s) :
    (points l).map Prod.fst = s.map Char.toNat := by
  induction s generalizing l with
  | nil =>
      rw [List.map_eq_nil_iff.1 hl]
      rfl
  | cons c s ih =>
      rw [utf16, List.flatMap_cons, ← utf16] at hl
      rcases Nat.lt_or_ge c.toNat 0x10000 with hc | hc
      · rcases utf16Char_unit hc with ⟨hunit, hhigh, _⟩
        rw [hunit, List.singleton_append, List.map_eq_cons_iff] at hl
        rcases hl with ⟨⟨u, d⟩, l, rfl, rfl, hl⟩
        rw [points_cons hhigh, List.map_cons, List.map_cons, ih hl, unitPoint_char hc]
      · rcases utf16Char_pair hc with ⟨u, v, hpair, hhigh, hlow, hpoint⟩
        rw [hpair, List.cons_append, List.cons_append, List.nil_append, List.map_eq_cons_iff] at hl
        rcases hl with ⟨⟨u, d⟩, l, rfl, rfl, hl⟩
        rw [List.map_eq_cons_iff] at hl
        rcases hl with ⟨⟨v, e⟩, l, rfl, rfl, hl⟩
        simp only [points, hhigh, hlow, Bool.and_self, if_true, List.map_cons, hpoint, ih hl]

/-- A pair of units is one code point, which is above U+FFFF. -/
theorem length_points (l : List (UInt16 × Nat)) :
    (points l).length + (points l).countP (fun q => decide (0xFFFF < q.1)) = l.length := by
  have hunit : ∀ u : UInt16, ¬ 0xFFFF < unitPoint u := fun u => Nat.not_lt.2 (unitPoint_le u)
  induction l using points.induct with
  | case1 => rfl
  | case2 u d => simp [points, hunit]
  | case3 u d v e rest hpair ih =>
      have hhigh := (isHigh_iff.1 (Bool.and_eq_true_iff.1 hpair).1).1
      have hpoint : 0xFFFF < 0x10000 + (u.toNat - 0xD800) * 1024 + (v.toNat - 0xDC00) := by omega
      rw [points, if_pos hpair, List.countP_cons_of_pos (by simpa using hpoint)]
      simp only [List.length_cons]
      omega
  | case4 u d v e rest hpair ih =>
      rw [points, if_neg hpair, List.countP_cons_of_neg (by simpa using hunit u)]
      simp only [List.length_cons] at ih ⊢
      omega

end RataShell.Input
