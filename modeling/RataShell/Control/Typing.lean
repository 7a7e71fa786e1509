import RataShell.Control.CodeUnits
import RataShell.Control.Paste

/-!
# Typed characters

A character that is typed comes as one `WM_CHAR` for each of its code units, and
each of these is sent by itself.

* `sent_typed`: what is sent.
* `typed_utf8_iff`: it is the UTF-8 of what was typed exactly where no character
  takes two units.
-/

namespace RataShell.Input

open Term (Alacritty Lawful Op Plain plain plain_lawful)

variable {T R : Type}

namespace Control

variable (A : Alacritty T R)

/-- The control takes characters as input for the shell. -/
structure Ready (c : Control T) : Prop where
  session : c.session.isNone = false
  readOnly : c.readOnly = false
  viMode : c.viModeActive A = false

/-- One `WM_CHAR` for each unit. -/
def typed (units : Text) (c : Control T) : Control T := units.foldl (fun c u => c.wmChar A u) c

variable {A} {c : Control T}

/-- The vi mode is that of the terminal. -/
theorem viModeActive_congr {c' : Control T} (h : c'.terminal.map A.mode = c.terminal.map A.mode) :
    c'.viModeActive A = c.viModeActive A := by
  unfold viModeActive
  simp only [terminal] at h
  cases hsession : c.session <;> cases hsession' : c'.session <;>
    simp_all [Term.TermHost.viModeActive]

theorem readOnly_aside : Aside (Control.readOnly (T := T)) := fun _ _ _ _ => rfl

/-- Whatever sends from the live edge leaves the control ready. -/
theorem Ready.of_toLiveEdge (hA : Lawful A) (h : c.Ready A) {c' : Control T}
    (hterminal : c'.terminal = (c.toLiveEdge A).terminal) (hreadOnly : c'.readOnly = c.readOnly) :
    c'.Ready A := by
  have hmode : c'.terminal.map A.mode = c.terminal.map A.mode := by
    rw [hterminal, mode_toLiveEdge hA]
  refine ⟨?_, hreadOnly.trans h.readOnly, (viModeActive_congr hmode).trans h.viMode⟩
  -- there is a terminal where there is a session
  have hsome := congrArg Option.isNone hmode
  rw [Option.isNone_map, Option.isNone_map, terminal, terminal, Option.isNone_map,
    Option.isNone_map] at hsome
  exact hsome.trans h.session

/-- Sending text leaves the control ready. -/
theorem Ready.sendText (hA : Lawful A) (h : c.Ready A) (text : Text) :
    (c.sendText A text).Ready A := by
  unfold Control.sendText
  split
  · exact h
  · exact h.of_toLiveEdge hA rfl readOnly_aside.toLiveEdge

/-- A message with a unit sends it by itself. -/
theorem Ready.wmChar_eq (h : c.Ready A) {u : UInt16} (hu : 0x20 ≤ u.toNat) :
    c.wmChar A u = c.sendText A [u] := by
  have hlow : ¬ u < 0x20 := by
    rw [UInt16.lt_iff_toNat_lt]
    exact Nat.not_lt.2 hu
  have haction : c.charAction A u = .sendText [u] := by
    simp [charAction, h.session, h.readOnly, h.viMode, hlow]
  rw [Control.wmChar, haction]
  rfl

theorem Ready.wmChar (hA : Lawful A) (h : c.Ready A) {u : UInt16} (hu : 0x20 ≤ u.toNat) :
    (c.wmChar A u).sent = c.sent ++ [.text (encodeUnit u)] ∧ (c.wmChar A u).Ready A := by
  rw [h.wmChar_eq hu]
  refine ⟨?_, h.sendText hA [u]⟩
  rw [sent_sendText hA h.session (List.cons_ne_nil u []), wrapped, if_neg (by simp)]
  rfl

/-- A control character is left out. -/
theorem wmChar_control {u : UInt16} (hu : u.toNat < 0x20) : c.wmChar A u = c := by
  have hlow : u < 0x20 := UInt16.lt_iff_toNat_lt.2 hu
  have haction : c.charAction A u = .ignore := by
    simp [charAction, hlow]
  rw [wmChar, haction]
  rfl

/-- Of the units, what is no control character is sent, one after the other. -/
theorem Ready.typed (hA : Lawful A) (h : c.Ready A) (units : Text) :
    (c.typed A units).sent =
        c.sent ++ ((units.filter fun u => decide (0x20 ≤ u.toNat)).map encodeUnit).map .text ∧
      (c.typed A units).Ready A := by
  induction units generalizing c with
  | nil => exact ⟨(List.append_nil _).symm, h⟩
  | cons u units ih =>
      by_cases hu : 0x20 ≤ u.toNat
      · rcases h.wmChar hA hu with ⟨hsent, hready⟩
        rcases ih hready with ⟨hrest, hready'⟩
        refine ⟨?_, hready'⟩
        show ((c.wmChar A u).typed A units).sent = _
        rw [hrest, hsent, List.filter_cons_of_pos (by simp [hu]), List.append_assoc]
        rfl
      · show ((c.wmChar A u).typed A units).sent = _ ∧ ((c.wmChar A u).typed A units).Ready A
        rw [wmChar_control (not_le.1 hu), List.filter_cons_of_neg (by simp [hu])]
        exact ih h

/-- Typing changes nothing beside. -/
theorem Ready.typed_aside (hA : Lawful A) {β : Type} {part : Control T → β} (haside : Aside part)
    (h : c.Ready A) (units : Text) : part (c.typed A units) = part c := by
  induction units generalizing c with
  | nil => rfl
  | cons u units ih =>
      show part ((c.wmChar A u).typed A units) = part c
      by_cases hu : 0x20 ≤ u.toNat
      · rw [ih (h.wmChar hA hu).2, h.wmChar_eq hu]
        exact haside.sendText [u]
      · rw [wmChar_control (not_le.1 hu)]
        exact ih h

/-- What is sent of units none of which is a control character. -/
theorem sent_typed (hA : Lawful A) (h : c.Ready A) {units : Text}
    (hu : ∀ u ∈ units, 0x20 ≤ u.toNat) :
    (c.typed A units).sent = c.sent ++ (units.map encodeUnit).map .text := by
  have hall : units.filter (fun u => decide (0x20 ≤ u.toNat)) = units :=
    List.filter_eq_self.2 fun u hmem => decide_eq_true (hu u hmem)
  rw [(h.typed hA units).1, hall]

end Control

/-! ## Characters of two units -/

/-- No unit of a string is a control character if none of its characters is. -/
theorem utf16_ge {s : List Char} (hs : ∀ ch ∈ s, 0x20 ≤ ch.toNat) :
    ∀ u ∈ utf16 s, 0x20 ≤ u.toNat := by
  intro u hu
  rcases List.mem_flatMap.1 hu with ⟨ch, hch, hmem⟩
  rcases Nat.lt_or_ge ch.toNat 0x10000 with hlt | hge
  · rw [(utf16Char_unit hlt).1, List.mem_singleton] at hmem
    rw [hmem, toNat_unit hlt]
    exact hs ch hch
  · rcases utf16Char_pair hge with ⟨v, w, hpair, hhigh, hlow, _⟩
    rw [hpair] at hmem
    have hv := (isHigh_iff.1 hhigh).1
    have hw := (isLow_iff.1 hlow).1
    simp only [List.mem_cons, List.not_mem_nil, or_false] at hmem
    rcases hmem with rfl | rfl <;> omega

/-- Each character of two units is two bytes longer when its units are encoded by
themselves. -/
theorem length_encodeUnit_utf16 (s : List Char) :
    ((utf16 s).flatMap encodeUnit).length =
      (Utf8.encode s).length + 2 * s.countP (fun ch => decide (0xFFFF < ch.toNat)) := by
  induction s with
  | nil => rfl
  | cons ch s ih =>
      rw [utf16, List.flatMap_cons, ← utf16, List.flatMap_append, List.length_append, ih,
        Utf8.encode_cons, List.length_append]
      rcases Nat.lt_or_ge ch.toNat 0x10000 with hlt | hge
      · rw [(utf16Char_unit hlt).1, List.flatMap_singleton, encodeUnit_char hlt,
          List.countP_cons_of_neg (by simp; omega)]
        omega
      · have hbytes : (String.utf8EncodeChar ch).length = 4 := by
          rw [← encodePoint_toNat, encodePoint, if_neg (by omega), if_neg (by omega),
            if_neg (by omega)]
          rfl
        have hunits : ((utf16Char ch).flatMap encodeUnit).length = 6 := by
          rcases utf16Char_pair hge with ⟨v, w, hpair, hhigh, hlow, _⟩
          rw [hpair]
          simp [encodeUnit, hhigh, hlow, encodePoint]
        rw [hunits, hbytes, List.countP_cons_of_pos (by simp; omega)]
        omega

/-- Encoded unit by unit, a string is its UTF-8 exactly when each character is one
unit. -/
theorem flatMap_encodeUnit_iff (s : List Char) :
    (utf16 s).flatMap encodeUnit = Utf8.encode s ↔ ∀ ch ∈ s, ch.toNat ≤ 0xFFFF := by
  constructor
  · intro heq
    -- a character of two units would make it longer
    have hlength := length_encodeUnit_utf16 s
    rw [heq] at hlength
    have hnone : s.countP (fun ch => decide (0xFFFF < ch.toNat)) = 0 := by omega
    intro ch hch
    have hnot := List.countP_eq_zero.1 hnone ch hch
    simpa using hnot
  · intro hs
    induction s with
    | nil => rfl
    | cons ch s ih =>
        rw [List.forall_mem_cons] at hs
        have hlt : ch.toNat < 0x10000 := by omega
        rw [utf16, List.flatMap_cons, ← utf16, List.flatMap_append, ih hs.2,
          (utf16Char_unit hlt).1, List.flatMap_singleton, encodeUnit_char hlt, Utf8.encode_cons]

/-- What is typed arrives in UTF-8 exactly when each character of it is one unit. -/
theorem typed_utf8_iff {A : Alacritty T R} (hA : Lawful A) {c : Control T} (h : c.Ready A)
    {s : List Char} (hs : ∀ ch ∈ s, 0x20 ≤ ch.toNat) :
    ∃ pieces : List (List UInt8),
      (c.typed A (utf16 s)).sent = c.sent ++ pieces.map .text ∧
      (pieces.flatten = Utf8.encode s ↔ ∀ ch ∈ s, ch.toNat ≤ 0xFFFF) := by
  refine ⟨(utf16 s).map encodeUnit, Control.sent_typed hA h (utf16_ge hs), ?_⟩
  rw [← List.flatMap_def]
  exact flatMap_encodeUnit_iff s

/-- A control with a shell. -/
def atPrompt : Control Plain := (Control.create 8 16 652 384).start plain 100

theorem atPrompt_ready : atPrompt.Ready plain :=
  ⟨by decide +kernel, by decide +kernel, by decide +kernel⟩

/-- U+1F600 arrives as two of U+FFFD. -/
theorem typed_emoji :
    atPrompt.Ready plain ∧ (∀ ch ∈ ['😀'], 0x20 ≤ ch.toNat) ∧
      ∃ pieces : List (List UInt8),
        (atPrompt.typed plain (utf16 ['😀'])).sent = pieces.map .text ∧
        pieces.flatten = Utf8.encode ['\uFFFD', '\uFFFD'] ∧
        pieces.flatten ≠ Utf8.encode ['😀'] := by
  refine ⟨atPrompt_ready, by simp, [[0xEF, 0xBF, 0xBD], [0xEF, 0xBF, 0xBD]], ?_, ?_, ?_⟩
  · decide +kernel
  · decide +kernel
  · decide +kernel

/-- Letters of one and two bytes arrive. -/
theorem typed_letters :
    ∃ pieces : List (List UInt8),
      (atPrompt.typed plain (utf16 ['a', 'é'])).sent = pieces.map .text ∧
      pieces.flatten = Utf8.encode ['a', 'é'] := by
  rcases typed_utf8_iff plain_lawful atPrompt_ready (s := ['a', 'é']) (by simp) with
    ⟨pieces, hsent, hutf8⟩
  exact ⟨pieces, hsent, hutf8.2 (by simp)⟩

end RataShell.Input
