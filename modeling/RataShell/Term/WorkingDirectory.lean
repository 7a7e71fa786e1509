import RataShell.Term.Osc7

/-!
# The working directory

What comes of a directory that the shell reports: it is percent-encoded behind
`file://` and a host, and read by the scanner, decoded and normalised.

* `percentBytes_append`: a percent sign without two hex digits stands for itself,
  and what is on its two sides is decoded apart.
* `directory_received`: the directory that was reported.
-/

namespace RataShell.Term

open Utf8 (encode lossy)

/-! ## Encodings -/

/-- The escapes of some bytes, with hex digits of either case. -/
inductive Escapes : List UInt8 → Str → Prop where
  | nil : Escapes [] []
  | cons {b : UInt8} {x y : Char} {bs : List UInt8} {e : Str}
      (hx : toDigit x = some (b.toNat / 16)) (hy : toDigit y = some (b.toNat % 16))
      (h : Escapes bs e) : Escapes (b :: bs) ('%' :: x :: y :: e)

/-- A percent-encoding of a path: a slash is left as it is, a percent sign and a control
character are escaped, and each of the others may be. -/
inductive PercentEncodes : Str → Str → Prop where
  | nil : PercentEncodes [] []
  | literal {c : Char} {p e : Str} (hpercent : c ≠ '%') (hcontrol : 0x20 ≤ c.toNat)
      (h : PercentEncodes p e) : PercentEncodes (c :: p) (c :: e)
  | escaped {c : Char} {p f e : Str} (hslash : c ≠ '/')
      (hescapes : Escapes (String.utf8EncodeChar c) f) (h : PercentEncodes p e) :
      PercentEncodes (c :: p) (f ++ e)

/-- A path, and what of it is encoded. -/
inductive Reported : Str → Str → Prop where
  | posix {p : Str} (hroot : p.head? = some '/') (hcolon : (encode p)[2]? ≠ some 0x3A) :
      Reported p p
  | drive {x : Char} (hx : x.toNat < 0x80) (rest : Str) :
      Reported (x :: ':' :: rest) ('/' :: x :: ':' :: rest)

/-- The string begins with two hex digits. -/
def HexPair (s : Str) : Prop :=
  ∃ x y rest, s = x :: y :: rest ∧ (toDigit x).isSome ∧ (toDigit y).isSome

/-! ## Escapes -/

theorem toDigit_some {c : Char} {n : Nat} (h : toDigit c = some n) :
    n < 16 ∧ 0x30 ≤ c.toNat ∧ c.toNat < 0x80 := by
  unfold toDigit at h
  split at h
  · have hn := Option.some.inj h
    omega
  · split at h
    · have hn := Option.some.inj h
      omega
    · split at h
      · have hn := Option.some.inj h
        omega
      · cases h

/-- An ASCII character as a byte and back. -/
theorem ofNat_ascii {c : Char} (hc : c.toNat < 0x80) :
    Char.ofNat (UInt8.ofNat c.toNat).toNat = c := by
  rw [UInt8.toNat_ofNat_of_lt' (by rw [UInt8.size]; omega), Char.ofNat_toNat]

theorem hexByte_digits {b : UInt8} {x y : Char} (hx : toDigit x = some (b.toNat / 16))
    (hy : toDigit y = some (b.toNat % 16)) :
    hexByte (.ofNat x.toNat) (.ofNat y.toNat) = some b := by
  have hbyte : (b.toNat / 16) <<< 4 ||| b.toNat % 16 = b.toNat := by
    rw [← Nat.shiftLeft_add_eq_or_of_lt (show b.toNat % 16 < 2 ^ 4 by omega), Nat.shiftLeft_eq]
    omega
  simp only [hexByte, ofNat_ascii (toDigit_some hx).2.2, ofNat_ascii (toDigit_some hy).2.2, hx, hy,
    hbyte, UInt8.ofNat_toNat]

/-- The bytes begin with two hex digits. -/
def HexBytes (bs : List UInt8) : Prop :=
  ∃ x y rest v, bs = x :: y :: rest ∧ hexByte x y = some v

theorem percentBytes_escape {x y v : UInt8} (h : hexByte x y = some v) (rest : List UInt8) :
    percentBytes (0x25 :: x :: y :: rest) = v :: percentBytes rest := by
  rw [percentBytes, if_pos rfl, h]

/-- A byte that begins no escape is left as it is. -/
theorem percentBytes_cons {b : UInt8} {bs : List UInt8} (h : b = 0x25 → ¬ HexBytes bs) :
    percentBytes (b :: bs) = b :: percentBytes bs := by
  match bs with
  | [] => rfl
  | [x] => rfl
  | x :: y :: rest =>
      rw [percentBytes]
      split
      · rename_i hb
        cases hhex : hexByte x y with
        | none => rfl
        | some v => exact absurd ⟨x, y, rest, v, rfl, hhex⟩ (h hb)
      · rfl

theorem percentBytes_escapes {bs : List UInt8} {e : Str} (h : Escapes bs e) (rest : List UInt8) :
    percentBytes (encode e ++ rest) = bs ++ percentBytes rest := by
  induction h with
  | nil => rfl
  | cons hx hy h ih =>
      rw [Utf8.encode_cons, Utf8.encode_cons, Utf8.encode_cons,
        Utf8.utf8EncodeChar_ascii (show ('%' : Char).toNat < 0x80 by decide),
        Utf8.utf8EncodeChar_ascii (toDigit_some hx).2.2,
        Utf8.utf8EncodeChar_ascii (toDigit_some hy).2.2]
      exact (percentBytes_escape (hexByte_digits hx hy) _).trans (congrArg _ ih)

/-- Bytes other than the percent sign are left as they are. -/
theorem percentBytes_literal {bs : List UInt8} (h : 0x25 ∉ bs) (rest : List UInt8) :
    percentBytes (bs ++ rest) = bs ++ percentBytes rest := by
  induction bs with
  | nil => rfl
  | cons b bs ih =>
      rw [List.mem_cons, not_or] at h
      rw [List.cons_append, percentBytes_cons (fun hb => absurd hb.symm h.1), ih h.2]
      rfl

/-- Decoding gives the encoded path back. -/
theorem percentBytes_encodes {p e : Str} (h : PercentEncodes p e) :
    percentBytes (encode e) = encode p := by
  induction h with
  | nil => rfl
  | @literal c p e hpercent hcontrol h ih =>
      have hbytes : 0x25 ∉ String.utf8EncodeChar c := by
        intro hmem
        have hnat := Utf8.toNat_of_mem_utf8EncodeChar hmem (by decide)
        exact hpercent (Char.toNat_inj.1 hnat.symm)
      rw [Utf8.encode_cons, percentBytes_literal hbytes, ih, Utf8.encode_cons]
  | escaped hslash hescapes h ih =>
      rw [Utf8.encode_append, percentBytes_escapes hescapes, ih, Utf8.encode_cons]

theorem percentDecode_encodes {p e : Str} (h : PercentEncodes p e) : percentDecode e = p := by
  rw [percentDecode, percentBytes_encodes h, Utf8.lossy_encode]

/-! ## Percent signs that begin no escape -/

theorem hexByte_percent_right (x : UInt8) : hexByte x 0x25 = none := by
  have hpercent : toDigit (Char.ofNat (0x25 : UInt8).toNat) = none := by decide
  unfold hexByte
  rw [hpercent]
  cases toDigit (Char.ofNat x.toNat) <;> rfl

/-- No escape goes over a percent sign. -/
theorem HexBytes.of_append {as bs : List UInt8} (h : HexBytes (as ++ 0x25 :: bs)) :
    HexBytes as := by
  rcases h with ⟨x, y, rest, v, happend, hhex⟩
  match as with
  | [] =>
      cases happend
      cases hhex
  | [a] =>
      cases happend
      rw [hexByte_percent_right] at hhex
      cases hhex
  | a :: a' :: as =>
      simp only [List.cons_append, List.cons.injEq] at happend
      rcases happend with ⟨rfl, rfl, _⟩
      exact ⟨a, a', as, v, rfl, hhex⟩

/-- A percent sign that begins no escape is left, and its two sides are decoded apart. -/
theorem percentBytes_append {bs : List UInt8} (hbs : ¬ HexBytes bs) (as : List UInt8) :
    percentBytes (as ++ 0x25 :: bs) = percentBytes as ++ 0x25 :: percentBytes bs := by
  induction as using percentBytes.induct with
  | case1 x y rest v hhex ih =>
      rw [percentBytes_escape hhex]
      show percentBytes (0x25 :: x :: y :: (rest ++ 0x25 :: bs)) =
        v :: (percentBytes rest ++ 0x25 :: percentBytes bs)
      rw [percentBytes_escape hhex, ih]
  | case2 x y rest hhex ih =>
      -- the bytes behind this sign stay two that are no escape
      have hnone : ∀ tail, ¬ HexBytes (x :: y :: tail) := by
        rintro tail ⟨x', y', rest', v, hcons, hsome⟩
        cases hcons
        rw [hhex] at hsome
        cases hsome
      have hboth : ∀ tail, percentBytes (0x25 :: x :: y :: tail) =
          0x25 :: percentBytes (x :: y :: tail) := fun tail => percentBytes_cons fun _ => hnone tail
      rw [hboth]
      show percentBytes (0x25 :: x :: y :: (rest ++ 0x25 :: bs)) =
        0x25 :: (percentBytes (x :: y :: rest) ++ 0x25 :: percentBytes bs)
      rw [hboth, ← ih]
      rfl
  | case3 b x y rest hb ih =>
      rw [List.cons_append, percentBytes_cons (fun h => absurd h hb),
        percentBytes_cons (fun h => absurd h hb), ih, List.cons_append]
  | case4 b rest hshort ih =>
      have hnone : ¬ HexBytes rest := by
        rintro ⟨x, y, rest', v, hcons, hsome⟩
        exact hshort x y rest' hcons
      rw [List.cons_append, percentBytes_cons (fun _ h => hnone h.of_append),
        percentBytes_cons (fun _ => hnone), ih, List.cons_append]
  | case5 => exact percentBytes_cons fun _ => hbs

/-- Two hex digits are two bytes. -/
theorem HexPair.of_bytes {s : Str} (h : HexBytes (encode s)) : HexPair s := by
  rcases h with ⟨x, y, rest, v, hencode, hhex⟩
  have hdigit : ∀ z : UInt8, ∀ n, toDigit (Char.ofNat z.toNat) = some n → z.toNat < 0x80 := by
    intro z n hz
    have hvalid : z.toNat.isValidChar := .inl (by have := z.toNat_lt; omega)
    have hlt := (toDigit_some hz).2.2
    rwa [Utf8.toNat_ofNat hvalid] at hlt
  unfold hexByte at hhex
  split at hhex
  · rename_i m n hx hy
    rcases Utf8.encode_eq_cons hencode (hdigit x m hx) with ⟨c, ds, rfl, hc, hds⟩
    rcases Utf8.encode_eq_cons hds (hdigit y n hy) with ⟨d, es, rfl, hd, _⟩
    rw [← hc, Char.ofNat_toNat] at hx
    rw [← hd, Char.ofNat_toNat] at hy
    exact ⟨c, d, es, rfl, by rw [hx]; rfl, by rw [hy]; rfl⟩
  · cases hhex

/-- `percent_decode` keeps a percent sign that is not followed by two hex digits. -/
theorem percentDecode_append {t : Str} (ht : ¬ HexPair t) (s : Str) :
    percentDecode (s ++ '%' :: t) = percentDecode s ++ '%' :: percentDecode t := by
  have hbytes : ¬ HexBytes (encode t) := fun h => ht (HexPair.of_bytes h)
  have hencode : encode (s ++ '%' :: t) = encode s ++ 0x25 :: encode t := by
    rw [Utf8.encode_append, Utf8.encode_cons, Utf8.utf8EncodeChar_ascii (by decide)]
    rfl
  rw [percentDecode, hencode, percentBytes_append hbytes, Utf8.lossy_append_ascii _ (by decide)]
  rfl

/-! ## From the shell to the host -/

theorem Escapes.mem {bs : List UInt8} {e : Str} (h : Escapes bs e) :
    ∀ c ∈ e, 0x20 ≤ c.toNat := by
  induction h with
  | nil => simp
  | cons hx hy h ih =>
      rw [List.forall_mem_cons, List.forall_mem_cons, List.forall_mem_cons]
      have hx' := (toDigit_some hx).2.1
      have hy' := (toDigit_some hy).2.1
      exact ⟨by decide, by omega, by omega, ih⟩

/-- An encoding has no control character. -/
theorem PercentEncodes.mem {p e : Str} (h : PercentEncodes p e) : ∀ c ∈ e, 0x20 ≤ c.toNat := by
  induction h with
  | nil => simp
  | literal hpercent hcontrol h ih =>
      rw [List.forall_mem_cons]
      exact ⟨hcontrol, ih⟩
  | escaped hslash hescapes h ih =>
      rw [List.forall_mem_append]
      exact ⟨hescapes.mem, ih⟩

/-- The slash in front is not escaped. -/
theorem PercentEncodes.root {p e : Str} (h : PercentEncodes p e) (hroot : p.head? = some '/') :
    ∃ f, e = '/' :: f := by
  cases h with
  | nil => cases hroot
  | @literal c p e hpercent hcontrol h =>
      cases hroot
      exact ⟨e, rfl⟩
  | escaped hslash hescapes h =>
      cases hroot
      exact absurd rfl hslash

/-- The host is cut off. -/
theorem urlPath_file {h f : Str} (hh : '/' ∉ h) :
    urlPath (fileScheme ++ h ++ '/' :: f) = '/' :: f := by
  have hprefix : fileScheme <+: fileScheme ++ (h ++ '/' :: f) := List.prefix_append _ _
  have hslash : '/' ∈ h ++ '/' :: f := List.mem_append_right h List.mem_cons_self
  have hdrop : (h ++ '/' :: f).dropWhile (· ≠ '/') = '/' :: f := by
    rw [List.dropWhile_append_of_pos, List.dropWhile_cons_of_neg]
    · simp
    · intro c hc
      have hne : c ≠ '/' := fun heq => hh (heq ▸ hc)
      simpa using hne
  rw [List.append_assoc, urlPath, if_pos hprefix, List.drop_left]
  simp only [hslash, if_true, hdrop]

theorem Reported.root {p q : Str} (h : Reported p q) : q.head? = some '/' := by
  cases h with
  | posix hroot hcolon => exact hroot
  | drive hx rest => rfl

/-- Normalisation gives the path that was meant. -/
theorem Reported.normalize {p q : Str} (h : Reported p q) : normalizePath q = p := by
  cases h with
  | posix hroot hcolon => rw [normalizePath, if_neg fun hwindows => hcolon hwindows.2.2]
  | @drive x hx rest =>
      have hencode : encode ('/' :: x :: ':' :: rest) =
          0x2f :: .ofNat x.toNat :: 0x3A :: encode rest := by
        rw [Utf8.encode_cons, Utf8.encode_cons, Utf8.encode_cons,
          Utf8.utf8EncodeChar_ascii (show ('/' : Char).toNat < 0x80 by decide),
          Utf8.utf8EncodeChar_ascii hx,
          Utf8.utf8EncodeChar_ascii (show (':' : Char).toNat < 0x80 by decide)]
        rfl
      rw [normalizePath, hencode, if_pos ⟨by simp, rfl, rfl⟩]
      rfl

/-- The URL is a payload. -/
theorem free_url {h e : Str} (hh : ∀ c ∈ h, c ≠ '/' ∧ c ≠ '\x07' ∧ c ≠ '\x1b')
    (he : ∀ c ∈ e, 0x20 ≤ c.toNat) : Osc7.Free (encode (fileScheme ++ h ++ e)) := by
  have hchars : ∀ c ∈ fileScheme ++ h ++ e, c.toNat ≠ 0x07 ∧ c.toNat ≠ 0x1b := by
    rw [List.forall_mem_append, List.forall_mem_append]
    refine ⟨⟨by simp [fileScheme], ?_⟩, ?_⟩
    · intro c hc
      have hne := hh c hc
      exact ⟨fun h => hne.2.1 (Char.toNat_inj.1 h), fun h => hne.2.2 (Char.toNat_inj.1 h)⟩
    · intro c hc
      have hge := he c hc
      omega
  intro b hb
  refine ⟨?_, ?_⟩
  · rintro rfl
    rcases Utf8.mem_encode_ascii hb (by decide) with ⟨c, hc, hnat⟩
    exact (hchars c hc).1 hnat
  · rintro rfl
    rcases Utf8.mem_encode_ascii hb (by decide) with ⟨c, hc, hnat⟩
    exact (hchars c hc).2 hnat

/-- A fresh scanner reads the directory that was reported, and no percent sign is lost
in a URL that was not encoded. -/
theorem directory_received :
    (∀ h p q e : Str, (∀ c ∈ h, c ≠ '/' ∧ c ≠ '\x07' ∧ c ≠ '\x1b') → Reported p q →
      PercentEncodes q e → (encode (fileScheme ++ h ++ e)).length ≤ 4096 → ∀ t,
      (Osc7.new.advance (Osc7.sequence (encode (fileScheme ++ h ++ e)) t)).currentCwd = p) ∧
    ∀ s t : Str, ¬ HexPair t →
      percentDecode (s ++ '%' :: t) = percentDecode s ++ '%' :: percentDecode t := by
  constructor
  · intro h p q e hh hp he hlength t
    have hslash : '/' ∉ h := fun hmem => (hh '/' hmem).1 rfl
    rcases he.root hp.root with ⟨f, rfl⟩
    rw [Osc7.advance_sequence Osc7.new_valid (by decide) (free_url hh he.mem) hlength]
    show osc7Path _ = p
    rw [osc7Path, Utf8.lossy_encode, urlPath_file hslash, percentDecode_encodes he, hp.normalize]
  · intro s t ht
    exact percentDecode_append ht s

/-- `file://pc/C:/%c3%A9`, and `%41%4`. -/
theorem directory_received_drive :
    (Osc7.new.advance (Osc7.sequence (encode (fileScheme ++ ['p', 'c'] ++
      ['/', 'C', ':', '/', '%', 'c', '3', '%', 'A', '9'])) .st)).currentCwd = ['C', ':', '/', 'é'] ∧
    percentDecode ['%', '4', '1', '%', '4'] = ['A', '%', '4'] := by
  have hescapes : Escapes (String.utf8EncodeChar 'é') ['%', 'c', '3', '%', 'A', '9'] := by
    rw [show String.utf8EncodeChar 'é' = [0xC3, 0xA9] by decide]
    exact .cons rfl rfl (.cons rfl rfl .nil)
  have hencodes : PercentEncodes ['/', 'C', ':', '/', 'é']
      ['/', 'C', ':', '/', '%', 'c', '3', '%', 'A', '9'] :=
    .literal (by decide) (by decide) <| .literal (by decide) (by decide) <|
      .literal (by decide) (by decide) <| .literal (by decide) (by decide) <|
      .escaped (by decide) hescapes .nil
  have hpair : ¬ HexPair ['4'] := by
    rintro ⟨x, y, rest, hcons, _⟩
    cases hcons
  refine ⟨directory_received.1 ['p', 'c'] ['C', ':', '/', 'é'] ['/', 'C', ':', '/', 'é'] _
    (by simp) (.drive (by decide) ['/', 'é']) hencodes (by decide +kernel) .st, ?_⟩
  have hkept := directory_received.2 ['%', '4', '1'] ['4'] hpair
  rw [show percentDecode ['%', '4', '1'] = ['A'] by decide +kernel,
    show percentDecode ['4'] = ['4'] by decide +kernel] at hkept
  exact hkept

end RataShell.Term
