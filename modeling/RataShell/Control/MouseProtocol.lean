import RataShell.Lib.Utf8
import RataShell.Control.Mouse

/-!
# Mouse protocols

What a program reads of the mouse sequences, in each of the three protocols that
it can ask for.

* `sgr_decoded`: mode 1006 gives button, column, row and release back.
* `report_decoded_iff`: X10 does too; mode 1005 exactly for what is no release.
-/

namespace RataShell.Input

/-! ## Mode 1006 -/

def isDigit (b : UInt8) : Bool := 0x30 ≤ b.toNat && b.toNat ≤ 0x39

/-- A decimal parameter, and what is behind it. -/
def parameter (bytes : List UInt8) : Option (Nat × List UInt8) :=
  if bytes.takeWhile isDigit = [] then none
  else some ((bytes.takeWhile isDigit).foldl (fun n b => 10 * n + (b.toNat - 0x30)) 0,
    bytes.dropWhile isDigit)

/-- `CSI < Pb ; Px ; Py M` for a press, with `m` for a release. -/
def sgrReport (bytes : List UInt8) : Option (Report × Bool) :=
  match bytes with
  | 0x1b :: 0x5b :: 0x3c :: rest =>
      match parameter rest with
      | some (cb, 0x3b :: rest) =>
          match parameter rest with
          | some (col, 0x3b :: rest) =>
              match parameter rest with
              | some (row, [0x4d]) => some (⟨cb, col, row⟩, true)
              | some (row, [0x6d]) => some (⟨cb, col, row⟩, false)
              | _ => none
          | _ => none
      | _ => none
  | _ => none

@[simp] theorem ascii_append (s t : String) : ascii (s ++ t) = ascii s ++ ascii t := by
  simp [ascii]

theorem ascii_toString (n : Nat) :
    ascii (toString n) = (Nat.toDigits 10 n).map fun c => UInt8.ofNat c.toNat := by
  rw [ascii, Nat.toString_eq_repr, Nat.toList_repr]

theorem digit_toNat {c : Char} {n : Nat} (hc : c ∈ Nat.toDigits 10 n) :
    0x30 ≤ c.toNat ∧ c.toNat ≤ 0x39 := by
  have hdigit := Nat.isDigit_of_mem_toDigits (by decide) (by decide) hc
  simp only [Char.isDigit, Bool.and_eq_true, decide_eq_true_eq, ge_iff_le] at hdigit
  exact hdigit

theorem ofNat_digit {c : Char} (hc : 0x30 ≤ c.toNat ∧ c.toNat ≤ 0x39) :
    (UInt8.ofNat c.toNat).toNat = c.toNat :=
  UInt8.toNat_ofNat_of_lt' (by rw [UInt8.size]; omega)

/-- The value of digits. -/
theorem foldl_digits {l : List Char} (hl : ∀ c ∈ l, 0x30 ≤ c.toNat ∧ c.toNat ≤ 0x39) (k : Nat) :
    (l.map fun c => UInt8.ofNat c.toNat).foldl (fun n b => 10 * n + (b.toNat - 0x30)) k =
      Nat.ofDigitChars 10 l k := by
  induction l generalizing k with
  | nil => rfl
  | cons c l ih =>
      rw [List.forall_mem_cons] at hl
      rw [List.map_cons, List.foldl_cons, ofNat_digit hl.1, ih hl.2, Nat.ofDigitChars_cons]
      rfl

/-- A number is read up to what is behind it. -/
theorem parameter_toString (n : Nat) {b : UInt8} (hb : isDigit b = false) (rest : List UInt8) :
    parameter (ascii (toString n) ++ b :: rest) = some (n, b :: rest) := by
  have hdigits : ∀ d ∈ ascii (toString n), isDigit d = true := by
    intro d hd
    rw [ascii_toString, List.mem_map] at hd
    rcases hd with ⟨c, hc, rfl⟩
    have hrange := digit_toNat hc
    rw [isDigit, ofNat_digit hrange, Bool.and_eq_true, decide_eq_true_eq, decide_eq_true_eq]
    exact hrange
  have htake : (ascii (toString n) ++ b :: rest).takeWhile isDigit = ascii (toString n) := by
    rw [List.takeWhile_append_of_pos hdigits, List.takeWhile_cons_of_neg (by simp [hb]),
      List.append_nil]
  have hdrop : (ascii (toString n) ++ b :: rest).dropWhile isDigit = b :: rest := by
    rw [List.dropWhile_append_of_pos hdigits, List.dropWhile_cons_of_neg (by simp [hb])]
  have hne : ascii (toString n) ≠ [] := by
    rw [ascii_toString, ne_eq, List.map_eq_nil_iff]
    exact Nat.toDigits_ne_nil
  have hvalue : (ascii (toString n)).foldl (fun n b => 10 * n + (b.toNat - 0x30)) 0 = n := by
    rw [ascii_toString, foldl_digits fun c hc => digit_toNat hc]
    exact Nat.ofDigitChars_toDigits (by decide) (by decide)
  rw [parameter, htake, hdrop, if_neg hne, hvalue]

/-- The bytes of mode 1006. -/
theorem mouseSequence_sgr {mode : UInt32} (hmode : mode &&& RATA_MODE_SGR_MOUSE ≠ 0) (r : Report)
    (press : Bool) :
    mouseSequence mode r press =
      0x1b :: 0x5b :: 0x3c :: (ascii (toString r.cb) ++ 0x3b :: (ascii (toString r.col) ++
        0x3b :: (ascii (toString r.row) ++ [if press then 0x4d else 0x6d]))) := by
  have hintro : ascii "\x1b[<" = [0x1b, 0x5b, 0x3c] := by decide
  have hsemicolon : ascii ";" = [0x3b] := by decide
  have hfinal : ascii (if press then "M" else "m") = [if press then 0x4d else 0x6d] := by
    cases press <;> decide
  rw [mouseSequence, if_pos hmode]
  simp only [ascii_append, hintro, hsemicolon, hfinal, List.append_assoc, List.cons_append,
    List.nil_append]

theorem sgrReport_mouseSequence {mode : UInt32} (hmode : mode &&& RATA_MODE_SGR_MOUSE ≠ 0)
    (r : Report) (press : Bool) : sgrReport (mouseSequence mode r press) = some (r, press) := by
  rw [mouseSequence_sgr hmode]
  cases press with
  | true =>
      simp only [sgrReport, parameter_toString _ (show isDigit 0x3b = false by decide),
        parameter_toString _ (show isDigit 0x4d = false by decide), if_true]
  | false =>
      simp only [sgrReport, parameter_toString _ (show isDigit 0x3b = false by decide),
        parameter_toString _ (show isDigit 0x6d = false by decide), Bool.false_eq_true, if_false]

/-- What a program reads of a report. -/
inductive MouseEvent where
  | press (cb col row : Nat)
  | release (col row : Nat)
deriving DecidableEq, Repr

/-- The button bits are 3, and it is neither a move nor a turn of the wheel. -/
def isRelease (cb : Nat) : Bool := cb &&& 3 = 3 && cb &&& 0x60 = 0

/-- A report whose three numbers have 32 added. -/
def mouseEvent (cb col row : Nat) : Option MouseEvent :=
  if cb < 32 ∨ col ≤ 32 ∨ row ≤ 32 then none
  else if isRelease (cb - 32) then some (.release (col - 32) (row - 32))
  else some (.press (cb - 32) (col - 32) (row - 32))

/-- X10: `ESC [ M`, and a byte for each number. -/
def x10Event (bytes : List UInt8) : Option MouseEvent :=
  match bytes with
  | [0x1b, 0x5b, 0x4d, cb, col, row] => mouseEvent cb.toNat col.toNat row.toNat
  | _ => none

/-- Mode 1005: `ESC [ M`, and a character for each number. -/
def utf8Event (bytes : List UInt8) : Option MouseEvent :=
  match bytes with
  | 0x1b :: 0x5b :: 0x4d :: rest =>
      match Utf8.decode rest with
      | some [cb, col, row] => mouseEvent cb.toNat col.toNat row.toNat
      | _ => none
  | _ => none

/-- What is meant by a report. -/
def Report.event (r : Report) (press : Bool) : MouseEvent :=
  if press then .press r.cb r.col r.row else .release r.col r.row

/-- The button codes that the mouse handlers pass on. -/
inductive Handled : Nat → Bool → Prop where
  | down (button : MouseButton) (shift : ShiftState) :
      Handled (buttonCode button ||| mouseModifiersBits shift) true
  | move (shift : ShiftState) : Handled (motionCode shift ||| mouseModifiersBits shift) true
  | up (button : MouseButton) (shift : ShiftState) :
      Handled (buttonCode button ||| mouseModifiersBits shift) false
  | wheel (delta : Int) (shift : ShiftState) :
      Handled ((if 0 < delta then 64 else 65) ||| mouseModifiersBits shift) true

theorem modifiers_mem (shift : ShiftState) :
    mouseModifiersBits shift ∈ [0, 4, 8, 12, 16, 20, 24, 28] := by
  rcases shift with ⟨ssShift, ssAlt, ssCtrl, _, _, _⟩
  cases ssShift <;> cases ssAlt <;> cases ssCtrl <;> simp [mouseModifiersBits]

theorem motionCode_mem (shift : ShiftState) : motionCode shift ∈ [32, 33, 34, 35] := by
  rcases shift with ⟨_, _, _, ssLeft, ssRight, ssMiddle⟩
  cases ssLeft <;> cases ssMiddle <;> cases ssRight <;> simp [motionCode]

theorem buttonCode_mem (button : MouseButton) : buttonCode button ∈ [0, 1, 2] := by
  cases button <;> simp [buttonCode]

/-- No code of a handler reads as a release, and all are small. -/
theorem Handled.code {cb : Nat} {press : Bool} (h : Handled cb press) :
    isRelease cb = false ∧ cb < 96 := by
  have hbutton : ∀ b ∈ [0, 1, 2, 32, 33, 34, 35, 64, 65], ∀ m ∈ [0, 4, 8, 12, 16, 20, 24, 28],
      isRelease (b ||| m) = false ∧ b ||| m < 96 := by
    decide
  cases h with
  | down button shift | up button shift =>
      have hmem := buttonCode_mem button
      exact hbutton _ (by simp at hmem ⊢; omega) _ (modifiers_mem shift)
  | move shift =>
      have hmem := motionCode_mem shift
      exact hbutton _ (by simp at hmem ⊢; omega) _ (modifiers_mem shift)
  | wheel delta shift =>
      refine hbutton _ ?_ _ (modifiers_mem shift)
      split <;> decide

namespace Control

variable {T R : Type} {A : Term.Alacritty T R} {c : Control T}

theorem downReport_handled {button : MouseButton} {shift : ShiftState} {ax ay : Int} {r : Report}
    (h : c.downReport A button shift ax ay = some r) : Handled r.cb true := by
  unfold downReport at h
  split at h
  · cases h
  · rcases Option.map_eq_some_iff.1 h with ⟨p, _, rfl⟩
    exact .down button shift

theorem moveReport_handled {shift : ShiftState} {ax ay : Int} {r : Report}
    (h : c.moveReport A shift ax ay = some r) : Handled r.cb true := by
  unfold moveReport at h
  split at h
  · rcases Option.map_eq_some_iff.1 h with ⟨p, _, rfl⟩
    exact .move shift
  · cases h

theorem upReport_handled {button : MouseButton} {shift : ShiftState} {ax ay : Int} {r : Report}
    (h : c.upReport A button shift ax ay = some r) : Handled r.cb false := by
  rcases Option.map_eq_some_iff.1 h with ⟨p, _, rfl⟩
  exact .up button shift

theorem wheelReport_handled {shift : ShiftState} {delta ax ay : Int} {r : Report}
    (h : c.wheelReport A shift delta ax ay = some r) : Handled r.cb true := by
  unfold wheelReport at h
  split at h
  · rcases Option.map_eq_some_iff.1 h with ⟨p, _, rfl⟩
    exact .wheel delta shift
  · cases h

end Control

/-- What `EncodeUtf8Cp` does up to U+07FF is UTF-8. -/
theorem encodeUtf8Cp_char {n : Nat} (hn : n < 0x800) :
    encodeUtf8Cp n = String.utf8EncodeChar (Char.ofNat n) := by
  have hvalid : n.isValidChar := .inl (by omega)
  have hval : (Char.ofNat n).val.toNat = n := Utf8.toNat_ofNat hvalid
  unfold encodeUtf8Cp String.utf8EncodeChar
  simp only [hval]
  rcases Nat.lt_or_ge n 0x80 with hone | hone
  · rw [if_pos hone, if_pos (show n ≤ 0x7f by omega)]
  · have hlead : (0xC0 : UInt8) ||| .ofNat (n >>> 6) = .ofNat (n / 64 % 0x20 + 0xc0) := by
      have hlt : n / 64 < 2 ^ 6 := by omega
      rw [Nat.shiftRight_eq_div_pow]
      show UInt8.ofNat 0xC0 ||| UInt8.ofNat (n / 64) = _
      have hor : 0xC0 ||| n / 64 = 0xC0 + n / 64 := (Nat.shiftLeft_add_eq_or_of_lt hlt 3).symm
      rw [← UInt8.ofNat_or, hor, show 0xC0 + n / 64 = n / 64 % 0x20 + 0xc0 by omega]
    have htail : (0x80 : UInt8) ||| .ofNat (n &&& 0x3F) = .ofNat (n % 0x40 + 0x80) := by
      have hlt : n % 64 < 2 ^ 6 := Nat.mod_lt n (by decide)
      rw [show n &&& 0x3F = n % 64 from Nat.and_two_pow_sub_one_eq_mod n 6]
      show UInt8.ofNat 0x80 ||| UInt8.ofNat (n % 64) = _
      have hor : 0x80 ||| n % 64 = 0x80 + n % 64 := (Nat.shiftLeft_add_eq_or_of_lt hlt 2).symm
      rw [← UInt8.ofNat_or, hor, Nat.add_comm]
    rw [if_neg (Nat.not_lt.2 hone), if_pos hn, if_neg (show ¬ n ≤ 0x7f by omega),
      if_pos (show n ≤ 0x7ff by omega), hlead, htail]

theorem encodeUtf8Cp_ascii {n : Nat} (hn : n < 0x80) : encodeUtf8Cp n = [.ofNat n] := if_pos hn

theorem ascii_csiM : ascii "\x1b[M" = [0x1b, 0x5b, 0x4d] := by decide

/-- The bytes of X10. -/
theorem mouseSequence_x10 {mode : UInt32} (hsgr : mode &&& RATA_MODE_SGR_MOUSE = 0)
    (hutf8 : mode &&& RATA_MODE_UTF8_MOUSE = 0) (r : Report) (press : Bool) :
    mouseSequence mode r press =
      [0x1b, 0x5b, 0x4d, .ofNat ((if press then r.cb else 3) + 32), .ofNat (min r.col 222 + 32),
        .ofNat (min r.row 222 + 32)] := by
  rw [mouseSequence, if_neg (not_not_intro hsgr), if_neg (not_not_intro hutf8), ascii_csiM]
  rfl

/-- The bytes of mode 1005, whether it is a press or a release. -/
theorem mouseSequence_utf8 {mode : UInt32} (hsgr : mode &&& RATA_MODE_SGR_MOUSE = 0)
    (hutf8 : mode &&& RATA_MODE_UTF8_MOUSE ≠ 0) {r : Report} (hcode : r.cb < 96) (press : Bool) :
    mouseSequence mode r press =
      0x1b :: 0x5b :: 0x4d :: Utf8.encode [Char.ofNat (r.cb + 32),
        Char.ofNat (min r.col 2015 + 32), Char.ofNat (min r.row 2015 + 32)] := by
  have hcb : [UInt8.ofNat (r.cb + 32)] = String.utf8EncodeChar (Char.ofNat (r.cb + 32)) := by
    rw [← encodeUtf8Cp_char (by omega), encodeUtf8Cp_ascii (by omega)]
  rw [mouseSequence, if_neg (not_not_intro hsgr), if_pos hutf8, ascii_csiM, hcb,
    encodeUtf8Cp_char (by omega), encodeUtf8Cp_char (by omega), List.append_assoc,
    List.append_assoc, Utf8.encode_cons, Utf8.encode_cons, Utf8.encode_cons, Utf8.encode_nil,
    List.append_nil]
  rfl

theorem mouseEvent_add {cb col row : Nat} (hcol : 1 ≤ col) (hrow : 1 ≤ row) :
    mouseEvent (cb + 32) (col + 32) (row + 32) =
      some (if isRelease cb then .release col row else .press cb col row) := by
  rw [mouseEvent, if_neg (by omega)]
  simp only [Nat.add_sub_cancel]
  split <;> rfl

/-- X10 gives every event back. -/
theorem x10Event_mouseSequence {mode : UInt32} (hsgr : mode &&& RATA_MODE_SGR_MOUSE = 0)
    (hutf8 : mode &&& RATA_MODE_UTF8_MOUSE = 0) {r : Report} {press : Bool}
    (hcode : Handled r.cb press) (hcol : 1 ≤ r.col ∧ r.col ≤ 222) (hrow : 1 ≤ r.row ∧ r.row ≤ 222) :
    x10Event (mouseSequence mode r press) = some (r.event press) := by
  have hbyte : ∀ n, n ≤ 222 → (UInt8.ofNat (n + 32)).toNat = n + 32 := fun n hn =>
    UInt8.toNat_ofNat_of_lt' (by rw [UInt8.size]; omega)
  rcases hcode.code with ⟨hrelease, hlt⟩
  rw [mouseSequence_x10 hsgr hutf8, Nat.min_eq_left hcol.2, Nat.min_eq_left hrow.2]
  simp only [x10Event, hbyte _ hcol.2, hbyte _ hrow.2]
  cases press with
  | true =>
      rw [if_pos rfl, hbyte _ (by omega), mouseEvent_add hcol.1 hrow.1, hrelease]
      rfl
  | false =>
      rw [if_neg Bool.false_ne_true, hbyte _ (by decide), mouseEvent_add hcol.1 hrow.1]
      rfl

/-- In mode 1005 everything reads as a press. -/
theorem utf8Event_mouseSequence {mode : UInt32} (hsgr : mode &&& RATA_MODE_SGR_MOUSE = 0)
    (hutf8 : mode &&& RATA_MODE_UTF8_MOUSE ≠ 0) {r : Report} {press : Bool}
    (hcode : Handled r.cb press) (hcol : 1 ≤ r.col ∧ r.col ≤ 2015)
    (hrow : 1 ≤ r.row ∧ r.row ≤ 2015) :
    utf8Event (mouseSequence mode r press) = some (.press r.cb r.col r.row) := by
  have hchar : ∀ n, n ≤ 2015 → (Char.ofNat (n + 32)).toNat = n + 32 := fun n hn =>
    Utf8.toNat_ofNat (.inl (by omega))
  rcases hcode.code with ⟨hrelease, hlt⟩
  rw [mouseSequence_utf8 hsgr hutf8 hlt, Nat.min_eq_left hcol.2, Nat.min_eq_left hrow.2]
  simp only [utf8Event, Utf8.decode_encode, hchar _ hcol.2, hchar _ hrow.2,
    hchar r.cb (by omega), mouseEvent_add hcol.1 hrow.1, hrelease, Bool.false_eq_true, if_false]

/-- No code of a handler is sent as the byte of a release. -/
theorem Handled.byte_ne {cb : Nat} {press : Bool} (h : Handled cb press) :
    UInt8.ofNat (3 + 32) ≠ UInt8.ofNat (cb + 32) := by
  rcases h.code with ⟨hrelease, hlt⟩
  intro heq
  have hnat := congrArg UInt8.toNat heq
  rw [UInt8.toNat_ofNat_of_lt' (by decide),
    UInt8.toNat_ofNat_of_lt' (by rw [UInt8.size]; omega)] at hnat
  have hthree : cb = 3 := by omega
  rw [hthree] at hrelease
  exact absurd hrelease (by decide)

/-- Up to column and row 95 the two modes send a press alike, and a release not. -/
theorem mouseSequence_eq_iff {x10 utf8 : UInt32}
    (hx10 : x10 &&& RATA_MODE_SGR_MOUSE = 0 ∧ x10 &&& RATA_MODE_UTF8_MOUSE = 0)
    (hutf8 : utf8 &&& RATA_MODE_SGR_MOUSE = 0 ∧ utf8 &&& RATA_MODE_UTF8_MOUSE ≠ 0)
    {r : Report} {press : Bool} (hcode : Handled r.cb press) (hcol : r.col ≤ 95)
    (hrow : r.row ≤ 95) :
    mouseSequence x10 r press = mouseSequence utf8 r press ↔ press = true := by
  have hlt := hcode.code.2
  have hsmall : ∀ n, n ≤ 95 →
      String.utf8EncodeChar (Char.ofNat (n + 32)) = [.ofNat (n + 32)] := by
    intro n hn
    rw [← encodeUtf8Cp_char (by omega), encodeUtf8Cp_ascii (by omega)]
  rw [mouseSequence_x10 hx10.1 hx10.2, mouseSequence_utf8 hutf8.1 hutf8.2 hlt,
    Nat.min_eq_left (show r.col ≤ 222 by omega), Nat.min_eq_left (show r.row ≤ 222 by omega),
    Nat.min_eq_left (show r.col ≤ 2015 by omega), Nat.min_eq_left (show r.row ≤ 2015 by omega),
    Utf8.encode_cons, Utf8.encode_cons, Utf8.encode_cons, hsmall r.cb (by omega),
    hsmall _ hcol, hsmall _ hrow]
  cases press with
  | true => simp
  | false =>
      constructor
      · intro heq
        simp only [Bool.false_eq_true, if_false, List.cons_append, List.nil_append,
          List.cons.injEq, true_and] at heq
        exact absurd heq.1 hcode.byte_ne
      · intro hpress
        exact absurd hpress Bool.false_ne_true

/-- X10 gives back what the handlers report; mode 1005 does exactly where it is no
release, and up to column and row 95 the two send the same exactly there. -/
theorem report_decoded_iff {x10 utf8 : UInt32}
    (hx10 : x10 &&& RATA_MODE_SGR_MOUSE = 0 ∧ x10 &&& RATA_MODE_UTF8_MOUSE = 0)
    (hutf8 : utf8 &&& RATA_MODE_SGR_MOUSE = 0 ∧ utf8 &&& RATA_MODE_UTF8_MOUSE ≠ 0)
    {r : Report} {press : Bool} (hcode : Handled r.cb press) (hcol : 1 ≤ r.col)
    (hrow : 1 ≤ r.row) :
    (r.col ≤ 222 → r.row ≤ 222 →
      x10Event (mouseSequence x10 r press) = some (r.event press)) ∧
    (r.col ≤ 2015 → r.row ≤ 2015 →
      (utf8Event (mouseSequence utf8 r press) = some (r.event press) ↔ press = true)) ∧
    (r.col ≤ 95 → r.row ≤ 95 →
      (mouseSequence x10 r press = mouseSequence utf8 r press ↔ press = true)) := by
  refine ⟨?_, ?_, mouseSequence_eq_iff hx10 hutf8 hcode⟩
  · intro hcol' hrow'
    exact x10Event_mouseSequence hx10.1 hx10.2 hcode ⟨hcol, hcol'⟩ ⟨hrow, hrow'⟩
  · intro hcol' hrow'
    -- what is read is a press in either case
    rw [utf8Event_mouseSequence hutf8.1 hutf8.2 hcode ⟨hcol, hcol'⟩ ⟨hrow, hrow'⟩]
    cases press <;> simp [Report.event]

/-- The left button is let go in mode 1005. -/
theorem release_lost :
    Handled 0 false ∧
      utf8Event (mouseSequence 0x110 ⟨0, 1, 1⟩ false) ≠ some (Report.event ⟨0, 1, 1⟩ false) ∧
      mouseSequence 0x10 ⟨0, 1, 1⟩ false ≠ mouseSequence 0x110 ⟨0, 1, 1⟩ false := by
  refine ⟨.up .mbLeft ⟨false, false, false, false, false, false⟩, ?_, ?_⟩
  · decide +kernel
  · decide +kernel

/-- It is pressed. -/
theorem press_decoded :
    x10Event (mouseSequence 0x10 ⟨0, 1, 1⟩ true) = some (.press 0 1 1) ∧
      utf8Event (mouseSequence 0x110 ⟨0, 1, 1⟩ true) = some (.press 0 1 1) := by
  have hcode : Handled 0 true := .down .mbLeft ⟨false, false, false, false, false, false⟩
  rcases report_decoded_iff (r := ⟨0, 1, 1⟩) (show (0x10 : UInt32) &&& RATA_MODE_SGR_MOUSE = 0 ∧
      (0x10 : UInt32) &&& RATA_MODE_UTF8_MOUSE = 0 by decide)
    (show (0x110 : UInt32) &&& RATA_MODE_SGR_MOUSE = 0 ∧
      (0x110 : UInt32) &&& RATA_MODE_UTF8_MOUSE ≠ 0 by decide) hcode (by decide) (by decide) with
    ⟨hx10, hutf8, _⟩
  exact ⟨hx10 (by decide) (by decide), (hutf8 (by decide) (by decide)).2 rfl⟩

end RataShell.Input
