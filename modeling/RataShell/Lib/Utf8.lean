import RataShell.Lib.Feed
import Mathlib.Algebra.Order.Ring.Nat
import Mathlib.Tactic.Common

/-!
# UTF-8

Characters as bytes, and the decoder that puts U+FFFD for what is not UTF-8: one
for each longest beginning of a character, or for a byte that begins none.

* **Byte by byte** (`step`): the decoder is a consumer that is fed one byte after
  the other.
* **Round trip** (`lossy_encode`): it reads back what was encoded.
* **ASCII** (`lossy_append_ascii`): an ASCII byte stands for itself wherever it is, and
  what is on its two sides is decoded apart.
* **U+0000** (`lossy_nul`): only the byte 0 gives it.
-/

namespace Utf8

open Feed

/-! ## Encoding -/

theorem toNat_ofNat {n : Nat} (h : n.isValidChar) : (Char.ofNat n).toNat = n := by
  rw [Char.ofNat, dif_pos h]
  rfl

/-- The UTF-8 of some characters. -/
def encode (cs : List Char) : List UInt8 := cs.flatMap String.utf8EncodeChar

@[simp] theorem encode_nil : encode [] = [] := rfl

theorem encode_cons (c : Char) (cs : List Char) :
    encode (c :: cs) = String.utf8EncodeChar c ++ encode cs :=
  rfl

@[simp] theorem encode_append (cs ds : List Char) : encode (cs ++ ds) = encode cs ++ encode ds :=
  List.flatMap_append

/-- An ASCII character is its own byte. -/
theorem utf8EncodeChar_ascii {c : Char} (hc : c.toNat < 0x80) :
    String.utf8EncodeChar c = [.ofNat c.toNat] := by
  have hle : c.val.toNat ≤ 0x7f := Nat.le_of_lt_succ hc
  simp only [String.utf8EncodeChar, hle, if_true]
  rfl

/-- A byte below 0x80 is an ASCII character. -/
theorem toNat_of_mem_utf8EncodeChar {c : Char} {b : UInt8} (hb : b ∈ String.utf8EncodeChar c)
    (hlt : b.toNat < 0x80) : b.toNat = c.toNat := by
  have hhigh : ∀ n, n < 256 → 0x80 ≤ n → b ≠ UInt8.ofNat n := by
    rintro n hn hge rfl
    rw [UInt8.toNat_ofNat_of_lt' hn] at hlt
    omega
  rcases Nat.lt_or_ge c.toNat 0x80 with hc | hc
  · rw [utf8EncodeChar_ascii hc, List.mem_singleton] at hb
    rw [hb, UInt8.toNat_ofNat_of_lt' (by rw [UInt8.size]; omega)]
  · exfalso
    have hv : ¬ c.val.toNat ≤ 0x7f := Nat.not_le.2 hc
    simp only [String.utf8EncodeChar, hv, if_false] at hb
    split at hb
    · simp only [List.mem_cons, List.not_mem_nil, or_false] at hb
      rcases hb with h | h <;> exact hhigh _ (by omega) (by omega) h
    · split at hb
      · simp only [List.mem_cons, List.not_mem_nil, or_false] at hb
        rcases hb with h | h | h <;> exact hhigh _ (by omega) (by omega) h
      · simp only [List.mem_cons, List.not_mem_nil, or_false] at hb
        rcases hb with h | h | h | h <;> exact hhigh _ (by omega) (by omega) h

/-- The ASCII bytes of some characters are those of its ASCII characters. -/
theorem mem_encode_ascii {cs : List Char} {b : UInt8} (hb : b ∈ encode cs) (hlt : b.toNat < 0x80) :
    ∃ c ∈ cs, c.toNat = b.toNat := by
  rcases List.mem_flatMap.1 hb with ⟨c, hc, hmem⟩
  exact ⟨c, hc, (toNat_of_mem_utf8EncodeChar hmem hlt).symm⟩

/-- An ASCII byte in front is the first character. -/
theorem encode_eq_cons {cs : List Char} {b : UInt8} {bs : List UInt8} (h : encode cs = b :: bs)
    (hb : b.toNat < 0x80) : ∃ c ds, cs = c :: ds ∧ c.toNat = b.toNat ∧ encode ds = bs := by
  cases cs with
  | nil => cases h
  | cons c cs =>
      rw [encode_cons] at h
      have hmem : b ∈ String.utf8EncodeChar c := by
        cases hchar : String.utf8EncodeChar c with
        | nil => exact absurd hchar String.utf8EncodeChar_ne_nil
        | cons x xs =>
            rw [hchar, List.cons_append, List.cons.injEq] at h
            exact h.1 ▸ List.mem_cons_self
      have hc : b.toNat = c.toNat := toNat_of_mem_utf8EncodeChar hmem hb
      rw [utf8EncodeChar_ascii (hc ▸ hb), List.singleton_append, List.cons.injEq] at h
      exact ⟨c, cs, rfl, hc.symm, h.2⟩

/-! ## Boundaries -/

/-- A byte behind the first one of a character. -/
def continues (b : UInt8) : Bool := 0x80 ≤ b.toNat && b.toNat ≤ 0xBF

/-- A character begins or the bytes end at `k`. -/
def isCharBoundary (bs : List UInt8) (k : Nat) : Bool :=
  k == 0 ||
    match bs[k]? with
    | some b => !continues b
    | none => k == bs.length

theorem continues_ofNat {n : Nat} (hn : n < 256) :
    continues (.ofNat n) = true ↔ 0x80 ≤ n ∧ n ≤ 0xBF := by
  simp only [continues, UInt8.toNat_ofNat_of_lt' hn, Bool.and_eq_true, decide_eq_true_eq]

/-- The first byte of a character can be told from the others. -/
theorem utf8EncodeChar_bytes (c : Char) :
    ∃ b bs, String.utf8EncodeChar c = b :: bs ∧ continues b = false ∧
      ∀ x ∈ bs, continues x = true := by
  have hlt : c.val.toNat < 0x110000 := by
    have hvalid : c.val.toNat < 0xD800 ∨ 0xDFFF < c.val.toNat ∧ c.val.toNat < 0x110000 := c.valid
    omega
  unfold String.utf8EncodeChar
  simp only
  generalize c.val.toNat = v at hlt
  -- one byte, or two to four of which the others are 0x80 to 0xBF
  split
  · refine ⟨_, _, rfl, ?_, by simp⟩
    rw [← Bool.not_eq_true, continues_ofNat (by omega)]
    omega
  · split
    · refine ⟨_, _, rfl, ?_, ?_⟩
      · rw [← Bool.not_eq_true, continues_ofNat (by omega)]
        omega
      · rw [List.forall_mem_singleton, continues_ofNat (by omega)]
        omega
    · split
      · refine ⟨_, _, rfl, ?_, ?_⟩
        · rw [← Bool.not_eq_true, continues_ofNat (by omega)]
          omega
        · rw [List.forall_mem_cons, List.forall_mem_singleton, continues_ofNat (by omega),
            continues_ofNat (by omega)]
          omega
      · refine ⟨_, _, rfl, ?_, ?_⟩
        · rw [← Bool.not_eq_true, continues_ofNat (by omega)]
          omega
        · rw [List.forall_mem_cons, List.forall_mem_cons, List.forall_mem_singleton,
            continues_ofNat (by omega), continues_ofNat (by omega), continues_ofNat (by omega)]
          omega

/-- Behind the first character the boundaries are those of the rest. -/
theorem isCharBoundary_cons (c : Char) (cs : List Char) (k : Nat) :
    isCharBoundary (encode (c :: cs)) (k + (String.utf8EncodeChar c).length) =
      isCharBoundary (encode cs) k := by
  rcases utf8EncodeChar_bytes c with ⟨b, bs, hc, -, -⟩
  have hlength : (String.utf8EncodeChar c).length = bs.length + 1 := by rw [hc, List.length_cons]
  have hne : k + (String.utf8EncodeChar c).length ≠ 0 := by omega
  have hend : (k + (String.utf8EncodeChar c).length == (encode (c :: cs)).length) =
      (k == (encode cs).length) := by
    rw [encode_cons, List.length_append, Nat.add_comm k, Bool.eq_iff_iff, beq_iff_eq, beq_iff_eq,
      Nat.add_left_cancel_iff]
  rw [isCharBoundary, isCharBoundary, beq_eq_false_iff_ne.2 hne, Bool.false_or, hend, encode_cons,
    List.getElem?_append_right (Nat.le_add_left _ k), Nat.add_sub_cancel]
  cases k with
  | succ k => rw [beq_eq_false_iff_ne.2 (Nat.succ_ne_zero k), Bool.false_or]
  | zero =>
      cases cs with
      | nil => rfl
      | cons d cs =>
          rcases utf8EncodeChar_bytes d with ⟨b', bs', hd, hb', -⟩
          rw [encode_cons, hd, List.cons_append, List.getElem?_cons_zero]
          simp [hb']

/-- The boundaries in the bytes of some characters are between these. -/
theorem isCharBoundary_iff (cs : List Char) (k : Nat) :
    isCharBoundary (encode cs) k = true ↔ ∃ ds, ds <+: cs ∧ (encode ds).length = k := by
  induction cs generalizing k with
  | nil =>
      simp only [List.prefix_nil, exists_eq_left, isCharBoundary, encode_nil, List.getElem?_nil,
        List.length_nil, Bool.or_self, beq_iff_eq]
      exact eq_comm
  | cons c cs ih =>
      rcases utf8EncodeChar_bytes c with ⟨b, bs, hc, -, hbs⟩
      have hlength : (String.utf8EncodeChar c).length = bs.length + 1 := by
        rw [hc, List.length_cons]
      rcases Nat.lt_or_ge k (bs.length + 1) with hk | hk
      · cases k with
        | zero => exact iff_of_true rfl ⟨[], List.nil_prefix, rfl⟩
        | succ k =>
            -- a byte inside the first character
            have hlt : k < bs.length := by omega
            have hbyte : (encode (c :: cs))[k + 1]? = some bs[k] := by
              rw [encode_cons, hc, List.cons_append, List.getElem?_cons_succ,
                List.getElem?_append_left hlt, List.getElem?_eq_getElem hlt]
            refine iff_of_false ?_ ?_
            · simp [isCharBoundary, hbyte, hbs _ (List.getElem_mem hlt)]
            · rintro ⟨ds, hds, hk'⟩
              cases ds with
              | nil => cases hk'
              | cons d ds =>
                  rw [(List.cons_prefix_cons.1 hds).1, encode_cons, List.length_append,
                    hlength] at hk'
                  omega
      · obtain ⟨j, rfl⟩ : ∃ j, k = j + (String.utf8EncodeChar c).length :=
          ⟨k - (bs.length + 1), by omega⟩
        rw [isCharBoundary_cons, ih]
        constructor
        · rintro ⟨ds, hds, rfl⟩
          refine ⟨c :: ds, List.cons_prefix_cons.2 ⟨rfl, hds⟩, ?_⟩
          rw [encode_cons, List.length_append, Nat.add_comm]
        · rintro ⟨ds, hds, hk'⟩
          cases ds with
          | nil =>
              rw [encode_nil, List.length_nil] at hk'
              omega
          | cons d ds =>
              rcases List.cons_prefix_cons.1 hds with ⟨rfl, hds'⟩
              rw [encode_cons, List.length_append] at hk'
              exact ⟨ds, hds', by omega⟩

/-! ## Decoding -/

/-- U+FFFD. -/
def replacement : Char := '\uFFFD'

/-- A character under way: its bits so far, the bounds of its next byte, and how many
come behind that one. -/
structure Pending where
  bits : Nat
  low : Nat
  high : Nat
  more : Nat
deriving DecidableEq, Repr

/-- What the first byte of a character of several bytes begins. -/
def lead (b : Nat) : Option Pending :=
  if 0xC2 ≤ b ∧ b ≤ 0xDF then some ⟨b - 0xC0, 0x80, 0xBF, 0⟩
  else if b = 0xE0 then some ⟨0, 0xA0, 0xBF, 1⟩
  else if b = 0xED then some ⟨0xD, 0x80, 0x9F, 1⟩
  else if 0xE1 ≤ b ∧ b ≤ 0xEF then some ⟨b - 0xE0, 0x80, 0xBF, 1⟩
  else if b = 0xF0 then some ⟨0, 0x90, 0xBF, 2⟩
  else if 0xF1 ≤ b ∧ b ≤ 0xF3 then some ⟨b - 0xF0, 0x80, 0xBF, 2⟩
  else if b = 0xF4 then some ⟨4, 0x80, 0x8F, 2⟩
  else none

/-- A byte between characters. -/
def start (b : UInt8) : Option Pending × List Char :=
  if b.toNat < 0x80 then (none, [Char.ofNat b.toNat])
  else
    match lead b.toNat with
    | some p => (some p, [])
    | none => (none, [replacement])

/-- One byte. What has begun and does not go on is replaced, and the byte begins anew. -/
def step : Option Pending → UInt8 → Option Pending × List Char
  | none, b => start b
  | some p, b =>
      if p.low ≤ b.toNat ∧ b.toNat ≤ p.high then
        let bits := p.bits * 64 + b.toNat % 64
        match p.more with
        | 0 => (none, [Char.ofNat bits])
        | more + 1 => (some ⟨bits, 0x80, 0xBF, more⟩, [])
      else ((start b).1, replacement :: (start b).2)

/-- The end of the bytes. -/
def flush : Option Pending → List Char
  | none => []
  | some _ => [replacement]

/-- The characters of some bytes, which need not be UTF-8. -/
def lossy (bs : List UInt8) : List Char := (feed step none bs).2 ++ flush (feed step none bs).1

/-- The characters of some bytes if they are UTF-8. -/
def decode (bs : List UInt8) : Option (List Char) :=
  if encode (lossy bs) = bs then some (lossy bs) else none

@[simp] theorem lossy_nil : lossy [] = [] := rfl

theorem start_ascii {b : UInt8} (hb : b.toNat < 0x80) :
    start b = (none, [Char.ofNat b.toNat]) :=
  if_pos hb

/-- An ASCII byte ends what is under way. -/
theorem step_ascii {b : UInt8} (hb : b.toNat < 0x80) {s : Option Pending}
    (hs : ∀ p ∈ s, 0x80 ≤ p.low) : step s b = (none, flush s ++ [Char.ofNat b.toNat]) := by
  cases s with
  | none => exact start_ascii hb
  | some p =>
      have hlow : 0x80 ≤ p.low := hs p rfl
      have hout : ¬ (p.low ≤ b.toNat ∧ b.toNat ≤ p.high) := by omega
      simp only [step, hout, if_false, start_ascii hb]
      rfl

/-- What is under way can only become a character from 0x80 on. -/
def Pending.Long (p : Pending) : Prop :=
  (0x80 ≤ p.low ∧ p.high ≤ 0xBF) ∧ p.more ≤ 2 ∧
    0x80 ≤ (p.bits * 64 + p.low % 64) * 64 ^ p.more ∧
    ((p.bits * 64 + p.high % 64 + 1) * 64 ^ p.more ≤ 0xD800 ∨
      0xE000 ≤ (p.bits * 64 + p.low % 64) * 64 ^ p.more ∧
        (p.bits * 64 + p.high % 64 + 1) * 64 ^ p.more ≤ 0x110000)

theorem lead_long {b : Nat} {p : Pending} (h : lead b = some p) : p.Long := by
  unfold lead at h
  repeat' split at h
  all_goals
    simp only [Option.some.injEq, reduceCtorEq] at h
  all_goals
    subst h
    simp [Pending.Long]
  all_goals omega

theorem start_long (b : UInt8) : ∀ p ∈ (start b).1, p.Long := by
  unfold start
  intro p hp
  split at hp
  · cases hp
  · cases hlead : lead b.toNat with
    | none =>
        rw [hlead] at hp
        cases hp
    | some q =>
        rw [hlead] at hp
        rw [← Option.some.inj hp]
        exact lead_long hlead

theorem start_low (b : UInt8) : ∀ p ∈ (start b).1, 0x80 ≤ p.low :=
  fun p hp => (start_long b p hp).1.1

/-- No ASCII byte goes on with a character. -/
theorem step_low (s : Option Pending) (b : UInt8) : ∀ p ∈ (step s b).1, 0x80 ≤ p.low := by
  cases s with
  | none => exact start_low b
  | some q =>
      intro p hp
      simp only [step] at hp
      split at hp
      · cases hmore : q.more with
        | zero =>
            rw [hmore] at hp
            cases hp
        | succ more =>
            rw [hmore] at hp
            cases hp
            exact Nat.le_refl 0x80
      · exact start_low b p hp

theorem feed_low {s : Option Pending} (hs : ∀ p ∈ s, 0x80 ≤ p.low) (bs : List UInt8) :
    ∀ p ∈ (feed step s bs).1, 0x80 ≤ p.low := by
  induction bs generalizing s with
  | nil => exact hs
  | cons b bs ih => exact ih (step_low s b)

/-- What is on the two sides of an ASCII byte is decoded apart. -/
theorem lossy_append_ascii (as : List UInt8) {b : UInt8} (hb : b.toNat < 0x80)
    (bs : List UInt8) : lossy (as ++ b :: bs) = lossy as ++ Char.ofNat b.toNat :: lossy bs := by
  have hnone : ∀ p ∈ (none : Option Pending), 0x80 ≤ p.low := by simp
  have hstep := step_ascii hb (feed_low hnone as)
  simp only [lossy, feed_append, feed_cons, hstep]
  simp

/-! ## U+0000 -/

theorem step_long {s : Option Pending} (hs : ∀ p ∈ s, p.Long) (b : UInt8) :
    ∀ p ∈ (step s b).1, p.Long := by
  cases s with
  | none => exact start_long b
  | some q =>
      intro p hp
      rcases hs q rfl with ⟨⟨hlow, hhigh⟩, hmore, hfrom, hto⟩
      simp only [step] at hp
      split at hp
      · rename_i hin
        match hq : q.more with
        | 0 =>
            rw [hq] at hp
            cases hp
        | 1 =>
            rw [hq] at hp hfrom hto
            cases hp
            simp only [Pending.Long]
            omega
        | 2 =>
            rw [hq] at hp hfrom hto
            cases hp
            simp only [Pending.Long]
            omega
        | n + 3 => omega
      · exact start_long b p hp

theorem ofNat_ne_nul {n : Nat} (hn : n.isValidChar) (hpos : 0 < n) : Char.ofNat n ≠ '\x00' := by
  intro h
  have hzero : (Char.ofNat n).toNat = 0 := congrArg Char.toNat h
  rw [toNat_ofNat hn] at hzero
  omega

/-- A step that leaves nothing under way and puts out nothing but U+0000 is that of the
byte 0. -/
theorem step_nul {s : Option Pending} (hs : ∀ p ∈ s, p.Long) {b : UInt8}
    (hend : (step s b).1 = none) (hout : ∀ c ∈ (step s b).2, c = '\x00') : s = none ∧ b = 0 := by
  have hreplacement : replacement ≠ '\x00' := by decide
  -- where a sequence is under way, it is too long to end in U+0000
  cases s with
  | none =>
      simp only [step, start] at hend hout
      split at hout
      · rename_i hb
        rcases Nat.eq_zero_or_pos b.toNat with hzero | hpos
        · exact ⟨rfl, UInt8.toNat_inj.1 hzero⟩
        · exact absurd (hout _ List.mem_cons_self) (ofNat_ne_nul (.inl (by omega)) hpos)
      · rename_i hb
        rw [if_neg hb] at hend
        cases hlead : lead b.toNat with
        | some p => simp [hlead] at hend
        | none => exact absurd (hout replacement (by simp [hlead])) hreplacement
  | some q =>
      rcases hs q rfl with ⟨⟨hlow, hhigh⟩, _, hfrom, hto⟩
      simp only [step] at hend hout
      split at hout
      · rename_i hin
        rw [if_pos hin] at hend
        cases hmore : q.more with
        | succ more => simp [hmore] at hend
        | zero =>
            rw [hmore] at hfrom hto
            have hvalid : (q.bits * 64 + b.toNat % 64).isValidChar := by
              unfold Nat.isValidChar
              omega
            refine absurd (hout _ (by simp [hmore])) (ofNat_ne_nul hvalid ?_)
            omega
      · exact absurd (hout replacement List.mem_cons_self) hreplacement

/-- Only the bytes 0 are decoded to nothing but U+0000. -/
theorem lossy_nul {bs : List UInt8} (h : ∀ c ∈ lossy bs, c = '\x00') : ∀ b ∈ bs, b = 0 := by
  have hfeed : ∀ s : Option Pending, (∀ p ∈ s, p.Long) →
      (∀ c ∈ (feed step s bs).2 ++ flush (feed step s bs).1, c = '\x00') →
        s = none ∧ ∀ b ∈ bs, b = 0 := by
    clear h
    induction bs with
    | nil =>
        intro s _ hs
        cases s with
        | none => exact ⟨rfl, by simp⟩
        | some p => exact absurd (hs replacement (by simp [flush])) (by decide)
    | cons b bs ih =>
        intro s hlong hs
        simp only [feed_cons, List.append_assoc, List.forall_mem_append] at hs
        rcases ih (step s b).1 (step_long hlong b) (List.forall_mem_append.2 hs.2) with
          ⟨hend, hrest⟩
        rcases step_nul hlong hend hs.1 with ⟨hnone, hb⟩
        exact ⟨hnone, List.forall_mem_cons.2 ⟨hb, hrest⟩⟩
  exact (hfeed none (by simp) h).2

/-! ## Round trip -/

theorem step_lead {n : Nat} {p : Pending} (hn : n < 256) (hhigh : 0x80 ≤ n)
    (hlead : lead n = some p) : step none (.ofNat n) = (some p, []) := by
  have hascii : ¬ n < 0x80 := Nat.not_lt.2 hhigh
  simp only [step, start, UInt8.toNat_ofNat_of_lt' hn, hascii, if_false, hlead]

theorem step_more {bits low high more n : Nat} (hn : n < 256) (hlow : low ≤ n)
    (hhigh : n ≤ high) :
    step (some ⟨bits, low, high, more + 1⟩) (.ofNat n) =
      (some ⟨bits * 64 + n % 64, 0x80, 0xBF, more⟩, []) := by
  simp only [step, UInt8.toNat_ofNat_of_lt' hn, hlow, hhigh, and_self, if_true]

theorem step_last {bits low high n : Nat} (hn : n < 256) (hlow : low ≤ n) (hhigh : n ≤ high) :
    step (some ⟨bits, low, high, 0⟩) (.ofNat n) = (none, [Char.ofNat (bits * 64 + n % 64)]) := by
  simp only [step, UInt8.toNat_ofNat_of_lt' hn, hlow, hhigh, and_self, if_true]

theorem lead_two {v : Nat} (hlow : 0x80 ≤ v) (hhigh : v ≤ 0x7FF) :
    lead (v / 64 % 0x20 + 0xc0) = some ⟨v / 64, 0x80, 0xBF, 0⟩ := by
  have hrange : 0xC2 ≤ v / 64 % 0x20 + 0xc0 ∧ v / 64 % 0x20 + 0xc0 ≤ 0xDF := by omega
  have hbits : v / 64 % 0x20 + 0xc0 - 0xC0 = v / 64 := by omega
  rw [lead, if_pos hrange, hbits]

/-- The second byte of three is in the bounds that the first one sets. -/
theorem lead_three {v : Nat} (hlow : 0x800 ≤ v) (hhigh : v ≤ 0xFFFF)
    (hvalid : v < 0xD800 ∨ 0xDFFF < v) :
    ∃ low high, lead (v / 4096 % 0x10 + 0xe0) = some ⟨v / 4096, low, high, 1⟩ ∧
      low ≤ v / 64 % 0x40 + 0x80 ∧ v / 64 % 0x40 + 0x80 ≤ high := by
  have hbits : v / 4096 % 0x10 + 0xe0 - 0xE0 = v / 4096 := by omega
  unfold lead
  rw [if_neg (by omega)]
  split
  · exact ⟨0xA0, 0xBF, by rw [show v / 4096 = 0 by omega], by omega, by omega⟩
  · split
    · exact ⟨0x80, 0x9F, by rw [show v / 4096 = 0xD by omega], by omega, by omega⟩
    · rw [if_pos (by omega), hbits]
      exact ⟨0x80, 0xBF, rfl, by omega, by omega⟩

/-- The second byte of four is in the bounds that the first one sets. -/
theorem lead_four {v : Nat} (hlow : 0x10000 ≤ v) (hhigh : v < 0x110000) :
    ∃ low high, lead (v / 262144 % 0x08 + 0xf0) = some ⟨v / 262144, low, high, 2⟩ ∧
      low ≤ v / 4096 % 0x40 + 0x80 ∧ v / 4096 % 0x40 + 0x80 ≤ high := by
  have hbits : v / 262144 % 0x08 + 0xf0 - 0xF0 = v / 262144 := by omega
  unfold lead
  rw [if_neg (by omega), if_neg (by omega), if_neg (by omega), if_neg (by omega)]
  split
  · exact ⟨0x90, 0xBF, by rw [show v / 262144 = 0 by omega], by omega, by omega⟩
  · split
    · rw [hbits]
      exact ⟨0x80, 0xBF, rfl, by omega, by omega⟩
    · rw [if_pos (by omega)]
      exact ⟨0x80, 0x8F, by rw [show v / 262144 = 4 by omega], by omega, by omega⟩

/-- The six bits of a byte behind the first one. -/
theorem bits_append (v : Nat) : v / 64 * 64 + (v % 0x40 + 0x80) % 64 = v := by omega

/-- The decoder reads one character. -/
theorem feed_utf8EncodeChar (c : Char) :
    feed step none (String.utf8EncodeChar c) = (none, [c]) := by
  have hvalid : c.val.toNat < 0xD800 ∨ 0xDFFF < c.val.toNat ∧ c.val.toNat < 0x110000 := c.valid
  have hchar : Char.ofNat c.val.toNat = c := Char.ofNat_toNat c
  unfold String.utf8EncodeChar
  generalize c.val.toNat = v at hvalid hchar
  -- the last byte of two or more
  have hlast : step (some ⟨v / 64, 0x80, 0xBF, 0⟩) (.ofNat (v % 0x40 + 0x80)) = (none, [c]) := by
    rw [step_last (by omega) (by omega) (by omega), bits_append, hchar]
  simp only
  split
  · have hstart : start (.ofNat v) = (none, [c]) := by
      have hbyte : (UInt8.ofNat v).toNat = v := UInt8.toNat_ofNat_of_lt' (by rw [UInt8.size]; omega)
      rw [start_ascii (by omega), hbyte, hchar]
    simp only [feed_cons, feed_nil, step, hstart, List.append_nil]
  · split
    · -- two bytes
      have hlead := lead_two (v := v) (by omega) (by omega)
      have hfirst := step_lead (by omega) (by omega) hlead
      simp only [feed_cons, feed_nil, hfirst, hlast, List.nil_append, List.append_nil]
    · have hmiddle : v / 64 / 64 = v / 4096 := Nat.div_div_eq_div_mul v 64 64
      have hbits : v / 4096 * 64 + (v / 64 % 0x40 + 0x80) % 64 = v / 64 := by
        rw [← hmiddle, bits_append]
      split
      · -- three bytes
        rcases lead_three (v := v) (by omega) (by omega) (by omega) with
          ⟨low, high, hlead, hlow, hhigh⟩
        have hfirst := step_lead (by omega) (by omega) hlead
        have hsecond : step (some ⟨v / 4096, low, high, 1⟩) (.ofNat (v / 64 % 0x40 + 0x80)) =
            (some ⟨v / 64, 0x80, 0xBF, 0⟩, []) := by
          rw [step_more (by omega) hlow hhigh, hbits]
        simp only [feed_cons, feed_nil, hfirst, hsecond, hlast, List.nil_append, List.append_nil]
      · -- four bytes
        rcases lead_four (v := v) (by omega) (by omega) with ⟨low, high, hlead, hlow, hhigh⟩
        have hfirst := step_lead (by omega) (by omega) hlead
        have hsecond : step (some ⟨v / 262144, low, high, 2⟩) (.ofNat (v / 4096 % 0x40 + 0x80)) =
            (some ⟨v / 4096, 0x80, 0xBF, 1⟩, []) := by
          rw [step_more (by omega) hlow hhigh,
            show v / 262144 = v / 4096 / 64 from (Nat.div_div_eq_div_mul v 4096 64).symm,
            bits_append]
        have hthird : step (some ⟨v / 4096, 0x80, 0xBF, 1⟩) (.ofNat (v / 64 % 0x40 + 0x80)) =
            (some ⟨v / 64, 0x80, 0xBF, 0⟩, []) := by
          rw [step_more (by omega) (by omega) (by omega), hbits]
        simp only [feed_cons, feed_nil, hfirst, hsecond, hthird, hlast, List.nil_append,
          List.append_nil]

theorem feed_encode (cs : List Char) : feed step none (encode cs) = (none, cs) := by
  induction cs with
  | nil => rfl
  | cons c cs ih => rw [encode_cons, feed_append, feed_utf8EncodeChar, ih, List.singleton_append]

/-- What was encoded is read back. -/
theorem lossy_encode (cs : List Char) : lossy (encode cs) = cs := by
  rw [lossy, feed_encode]
  exact List.append_nil cs

theorem decode_encode (cs : List Char) : decode (encode cs) = some cs := by
  rw [decode, lossy_encode, if_pos rfl]

end Utf8
