import Mathlib.Data.List.Infix
import Mathlib.Tactic.Common

/-!
# Text of the control

A Delphi string is UTF-16; the session gets UTF-8, between the markers of a
bracketed paste where the terminal asks for them.

* `infix_utf8Encode`: ASCII text occurs in the UTF-8 where it does in the string.
* `utf8Encode_frame`: the UTF-8 of a string between ASCII markers.
-/

namespace RataShell.Input

/-- A Delphi `string`: UTF-16 code units. -/
abbrev Text := List UInt16

/-! ## UTF-8 -/

def isHigh (u : UInt16) : Bool := 0xD800 ≤ u && u ≤ 0xDBFF

def isLow (u : UInt16) : Bool := 0xDC00 ≤ u && u ≤ 0xDFFF

/-- The UTF-8 of a code point. -/
def encodePoint (c : Nat) : List UInt8 :=
  if c < 0x80 then [.ofNat c]
  else if c < 0x800 then [.ofNat (0xC0 + c / 64), .ofNat (0x80 + c % 64)]
  else if c < 0x10000 then
    [.ofNat (0xE0 + c / 4096), .ofNat (0x80 + c / 64 % 64), .ofNat (0x80 + c % 64)]
  else
    [.ofNat (0xF0 + c / 262144), .ofNat (0x80 + c / 4096 % 64), .ofNat (0x80 + c / 64 % 64),
      .ofNat (0x80 + c % 64)]

/-- A unit by itself; a surrogate without its half gives U+FFFD. -/
def encodeUnit (u : UInt16) : List UInt8 :=
  if isHigh u || isLow u then encodePoint 0xFFFD else encodePoint u.toNat

/-- `UTF8Encode`. -/
def utf8Encode : Text → List UInt8
  | [] => []
  | [u] => encodeUnit u
  | u :: v :: rest =>
      if isHigh u && isLow v then
        encodePoint (0x10000 + (u.toNat - 0xD800) * 1024 + (v.toNat - 0xDC00)) ++ utf8Encode rest
      else encodeUnit u ++ utf8Encode (v :: rest)

/-! ## ASCII in UTF-8 -/

/-- Bytes that encode some text: an ASCII unit as itself, and no byte of any other is
ASCII. -/
inductive Encodes : Text → List UInt8 → Prop where
  | nil : Encodes [] []
  | ascii {u : UInt16} {t : Text} {bs : List UInt8} (hu : u.toNat < 0x80) (h : Encodes t bs) :
      Encodes (u :: t) (u.toUInt8 :: bs)
  | other {us t : Text} {b : UInt8} {cs bs : List UInt8} (hus : us ≠ [])
      (hhigh : ∀ u ∈ us, 0x80 ≤ u.toNat) (hbytes : ∀ c ∈ b :: cs, 0x80 ≤ c.toNat)
      (h : Encodes t bs) : Encodes (us ++ t) (b :: cs ++ bs)

theorem encodePoint_other {c : Nat} (hc : 0x80 ≤ c) (hmax : c < 0x110000) :
    ∃ b bs, encodePoint c = b :: bs ∧ ∀ x ∈ b :: bs, 0x80 ≤ x.toNat := by
  have hof : ∀ n, 0x80 ≤ n → n < 256 → 0x80 ≤ (UInt8.ofNat n).toNat := by
    intro n hn hlt
    rw [UInt8.toNat_ofNat_of_lt' hlt]
    exact hn
  unfold encodePoint
  split
  · omega
  · split
    · refine ⟨_, _, rfl, ?_⟩
      simp only [List.forall_mem_cons, List.not_mem_nil, false_implies, implies_true, and_true]
      exact ⟨hof _ (by omega) (by omega), hof _ (by omega) (by omega)⟩
    · split
      · refine ⟨_, _, rfl, ?_⟩
        simp only [List.forall_mem_cons, List.not_mem_nil, false_implies, implies_true, and_true]
        exact ⟨hof _ (by omega) (by omega), hof _ (by omega) (by omega),
          hof _ (by omega) (by omega)⟩
      · refine ⟨_, _, rfl, ?_⟩
        simp only [List.forall_mem_cons, List.not_mem_nil, false_implies, implies_true, and_true]
        exact ⟨hof _ (by omega) (by omega), hof _ (by omega) (by omega),
          hof _ (by omega) (by omega), hof _ (by omega) (by omega)⟩

theorem isHigh_iff {u : UInt16} : isHigh u = true ↔ 0xD800 ≤ u.toNat ∧ u.toNat ≤ 0xDBFF := by
  simp [isHigh, UInt16.le_iff_toNat_le]

theorem isLow_iff {u : UInt16} : isLow u = true ↔ 0xDC00 ≤ u.toNat ∧ u.toNat ≤ 0xDFFF := by
  simp [isLow, UInt16.le_iff_toNat_le]

theorem not_low {u : UInt16} (hu : u.toNat < 0x80) : isLow u = false := by
  rw [Bool.eq_false_iff, ne_eq, isLow_iff]
  omega

theorem not_high {u : UInt16} (hu : u.toNat < 0x80) : isHigh u = false := by
  rw [Bool.eq_false_iff, ne_eq, isHigh_iff]
  omega

theorem encodeUnit_ascii {u : UInt16} (hu : u.toNat < 0x80) : encodeUnit u = [u.toUInt8] := by
  simp only [encodeUnit, not_high hu, not_low hu, encodePoint, hu, Bool.or_self,
    Bool.false_eq_true, if_false, if_true]
  rfl

/-- A unit by itself encodes as one. -/
theorem encodes_unit (u : UInt16) {t : Text} {bs : List UInt8} (h : Encodes t bs) :
    Encodes (u :: t) (encodeUnit u ++ bs) := by
  have hmax := u.toNat_lt
  rcases Nat.lt_or_ge u.toNat 0x80 with hu | hu
  · rw [encodeUnit_ascii hu]
    exact .ascii hu h
  · have hother : ∃ b cs, encodeUnit u = b :: cs ∧ ∀ x ∈ b :: cs, 0x80 ≤ x.toNat := by
      unfold encodeUnit
      split
      · exact encodePoint_other (by decide) (by decide)
      · exact encodePoint_other hu (by omega)
    rcases hother with ⟨b, cs, hunit, hbytes⟩
    rw [hunit]
    have hhigh : ∀ v ∈ [u], 0x80 ≤ v.toNat := by simpa using hu
    exact .other (List.cons_ne_nil u []) hhigh hbytes h

theorem utf8Encode_encodes (t : Text) : Encodes t (utf8Encode t) := by
  induction t using utf8Encode.induct with
  | case1 => exact .nil
  | case2 u =>
      have hunit := encodes_unit u .nil
      rw [List.append_nil] at hunit
      exact hunit
  | case3 u v rest hpair ih =>
      rw [utf8Encode, if_pos hpair]
      rw [Bool.and_eq_true, isHigh_iff, isLow_iff] at hpair
      obtain ⟨b, cs, hpoint, hbytes⟩ := encodePoint_other
        (c := 0x10000 + (u.toNat - 0xD800) * 1024 + (v.toNat - 0xDC00)) (by omega) (by omega)
      rw [hpoint]
      have hhigh : ∀ w ∈ [u, v], 0x80 ≤ w.toNat := by
        simp only [List.forall_mem_cons, List.not_mem_nil, false_implies, implies_true, and_true]
        omega
      exact .other (List.cons_ne_nil u [v]) hhigh hbytes ih
  | case4 u v rest hpair ih =>
      rw [utf8Encode, if_neg hpair]
      exact encodes_unit u ih

/-- The bytes of ASCII units. -/
def asciiBytes (m : Text) : List UInt8 := m.map UInt16.toUInt8

theorem toUInt8_toNat {u : UInt16} (hu : u.toNat < 0x80) : u.toUInt8.toNat = u.toNat := by
  rw [UInt16.toNat_toUInt8]
  omega

theorem toUInt8_inj {u v : UInt16} (hu : u.toNat < 0x80) (hv : v.toNat < 0x80) :
    u.toUInt8 = v.toUInt8 ↔ u = v := by
  constructor
  · intro heq
    apply UInt16.toNat_inj.1
    rw [← toUInt8_toNat hu, ← toUInt8_toNat hv, heq]
  · rintro rfl
    rfl

/-- ASCII text begins the bytes where it begins the string. -/
theorem Encodes.prefix_iff {t : Text} {bs : List UInt8} (h : Encodes t bs) {m : Text}
    (hm : ∀ u ∈ m, u.toNat < 0x80) : asciiBytes m <+: bs ↔ m <+: t := by
  induction h generalizing m with
  | nil => simp [asciiBytes]
  | ascii hu _ ih =>
      cases m with
      | nil => simp [asciiBytes]
      | cons a m =>
          rw [List.forall_mem_cons] at hm
          rw [asciiBytes, List.map_cons, List.cons_prefix_cons, List.cons_prefix_cons,
            toUInt8_inj hm.1 hu]
          exact and_congr_right fun _ => ih hm.2
  -- neither the unit nor its first byte is ASCII
  | @other us t b cs bs hus hhigh hbytes _ _ =>
      cases m with
      | nil => simp [asciiBytes]
      | cons a m =>
          rw [List.forall_mem_cons] at hm
          rcases List.exists_cons_of_ne_nil hus with ⟨u, us', rfl⟩
          have hu := hhigh u List.mem_cons_self
          have hb := hbytes b List.mem_cons_self
          have hunit : a ≠ u := by
            rintro rfl
            omega
          have hbyte : a.toUInt8 ≠ b := by
            rintro rfl
            rw [toUInt8_toNat hm.1] at hb
            omega
          simp [asciiBytes, hunit, hbyte]

/-- What does not begin inside of some elements begins behind them. -/
theorem infix_skip {α : Type} {a : α} {m : List α} {l : List α} (hl : a ∉ l) (l' : List α) :
    a :: m <:+: l ++ l' ↔ a :: m <:+: l' := by
  induction l with
  | nil => rfl
  | cons b l ih =>
      rw [List.mem_cons, not_or] at hl
      rw [List.cons_append, List.infix_cons_iff, ih hl.2]
      simp [hl.1]

/-- ASCII text occurs in the bytes where it does in the string. -/
theorem Encodes.infix_iff {t : Text} {bs : List UInt8} (h : Encodes t bs) {a : UInt16} {m : Text}
    (hm : ∀ u ∈ a :: m, u.toNat < 0x80) : asciiBytes (a :: m) <:+: bs ↔ a :: m <:+: t := by
  induction h with
  | nil => simp [asciiBytes]
  | ascii hu h ih =>
      rw [List.infix_cons_iff, List.infix_cons_iff, ih, (Encodes.ascii hu h).prefix_iff hm]
  | @other us t b cs bs hus hhigh hbytes h ih =>
      have ha := hm a List.mem_cons_self
      have hunits : ∀ us : Text, (∀ u ∈ us, 0x80 ≤ u.toNat) → a ∉ us := by
        intro us hus hmem
        have hge := hus a hmem
        omega
      have hbytes' : a.toUInt8 ∉ b :: cs := by
        intro hmem
        have hge := hbytes _ hmem
        rw [toUInt8_toNat ha] at hge
        omega
      rw [infix_skip (hunits us hhigh), ← ih]
      exact infix_skip hbytes' bs

/-- ASCII text occurs in the UTF-8 of a string where it does in the string. -/
theorem infix_utf8Encode {a : UInt16} {m : Text} (hm : ∀ u ∈ a :: m, u.toNat < 0x80) (t : Text) :
    asciiBytes (a :: m) <:+: utf8Encode t ↔ a :: m <:+: t :=
  (utf8Encode_encodes t).infix_iff hm

/-- ASCII text in front is encoded by itself. -/
theorem utf8Encode_ascii_append {m : Text} (hm : ∀ u ∈ m, u.toNat < 0x80) (t : Text) :
    utf8Encode (m ++ t) = asciiBytes m ++ utf8Encode t := by
  induction m with
  | nil => rfl
  | cons a m ih =>
      rw [List.forall_mem_cons] at hm
      have hcons : ∀ t, utf8Encode (a :: t) = a.toUInt8 :: utf8Encode t := by
        intro t
        cases t with
        | nil => exact encodeUnit_ascii hm.1
        | cons v t => simp [utf8Encode, not_high hm.1, encodeUnit_ascii hm.1]
      rw [List.cons_append, hcons, ih hm.2]
      rfl

/-- ASCII text behind is encoded by itself. -/
theorem utf8Encode_append_ascii (t : Text) {m : Text} (hm : ∀ u ∈ m, u.toNat < 0x80) :
    utf8Encode (t ++ m) = utf8Encode t ++ asciiBytes m := by
  have hself : utf8Encode m = asciiBytes m := by
    have happend := utf8Encode_ascii_append hm []
    rw [List.append_nil] at happend
    rw [happend]
    exact List.append_nil _
  induction t using utf8Encode.induct with
  | case1 => exact hself
  | case2 u =>
      cases m with
      | nil => exact (List.append_nil _).symm
      | cons v m =>
          rw [List.forall_mem_cons] at hm
          show utf8Encode (u :: v :: m) = encodeUnit u ++ _
          rw [utf8Encode, ← hself]
          simp [not_low hm.1]
  | case3 u v rest hpair ih =>
      show utf8Encode (u :: v :: (rest ++ m)) = _
      rw [utf8Encode, if_pos hpair, ih, utf8Encode, if_pos hpair, List.append_assoc]
  | case4 u v rest hpair ih =>
      show utf8Encode (u :: v :: (rest ++ m)) = _
      rw [utf8Encode, if_neg hpair, ← List.cons_append, ih, utf8Encode, if_neg hpair,
        List.append_assoc]

theorem utf8Encode_frame {m m' : Text} (hm : ∀ u ∈ m, u.toNat < 0x80) (t : Text)
    (hm' : ∀ u ∈ m', u.toNat < 0x80) :
    utf8Encode (m ++ t ++ m') = asciiBytes m ++ utf8Encode t ++ asciiBytes m' := by
  rw [utf8Encode_append_ascii _ hm', utf8Encode_ascii_append hm]

/-! ## Pasted text -/

def RATA_MODE_BRACKETED_PASTE : UInt32 := 0x08

/-- `ESC [ 200 ~` -/
def pasteStart : Text := [0x1b, 0x5b, 0x32, 0x30, 0x30, 0x7e]

/-- `ESC [ 201 ~` -/
def pasteStop : Text := [0x1b, 0x5b, 0x32, 0x30, 0x31, 0x7e]

/-- `LWrapped` of `SendText`: a text of several units is marked as pasted where the
terminal asks for it. -/
def wrapped (modeFlags : UInt32) (text : Text) : Text :=
  if modeFlags &&& RATA_MODE_BRACKETED_PASTE ≠ 0 ∧ 1 < text.length then
    pasteStart ++ text ++ pasteStop
  else text

end RataShell.Input
