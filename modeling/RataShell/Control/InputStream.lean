import Mathlib.Tactic.IntervalCases
import RataShell.Lib.Reader
import RataShell.Session.Keymap
import RataShell.Control.MouseProtocol

/-!
# The input stream

What a program reads of the keys that are sent to it one behind the other. A word of this
stream does not tell where it ends: Escape is the first byte of most others.

* `nextItem`: a reader in the manner of xterm.
* `reads_messages`: what it makes of a stream.
* `input_read_iff`: the streams that give back what was sent.
-/

namespace RataShell.InputStream

open Keymap (MOD_ALT MOD_CTRL MOD_SHIFT VK_BACK VK_DELETE VK_DOWN VK_END VK_ESCAPE VK_F1 VK_F12
  VK_HOME VK_INSERT VK_LEFT VK_NEXT VK_PRIOR VK_RETURN VK_RIGHT VK_TAB VK_UP csiArrow csiTilde
  encode functionCodes has modparam)
open Input (ascii isDigit parameter)
open Reader (merge read)

/-! ## What is read -/

/-- A key with the modifiers that come with it. -/
structure Item where
  vk : UInt32
  shift : Bool
  alt : Bool
  ctrl : Bool
deriving DecidableEq, Repr

/-- A key without modifiers. -/
def plainKey (vk : UInt32) : Item := ⟨vk, false, false, false⟩

def escape : Item := plainKey VK_ESCAPE
def back : Item := plainKey VK_BACK
def altBack : Item := ⟨VK_BACK, false, true, false⟩

/-- A key with the modifiers of the parameter of a sequence. -/
def modifiedKey (vk : UInt32) (param : Nat) : Item :=
  ⟨vk, (param - 1).testBit 0, (param - 1).testBit 1, (param - 1).testBit 2⟩

/-- The final bytes of the keys of the cursor. -/
def cursorKeys : List (UInt8 × UInt32) :=
  [(0x41, VK_UP), (0x42, VK_DOWN), (0x43, VK_RIGHT), (0x44, VK_LEFT), (0x48, VK_HOME),
   (0x46, VK_END)]

/-- The codes of the other keys. -/
def codedKeys : List (Nat × UInt32) :=
  [(2, VK_INSERT), (3, VK_DELETE), (5, VK_PRIOR), (6, VK_NEXT), (11, 0x70), (12, 0x71),
   (13, 0x72), (14, 0x73), (15, 0x74), (17, 0x75), (18, 0x76), (19, 0x77), (20, 0x78),
   (21, 0x79), (23, 0x7A), (24, 0x7B)]

/-- A sequence without parameter behind `ESC [`. -/
def nextFinal (final : UInt8) (rest : List UInt8) : Option (Item × List UInt8) :=
  if final = 0x5a then some (⟨VK_TAB, true, false, false⟩, rest)
  else (cursorKeys.lookup final).map fun vk => (plainKey vk, rest)

/-- What is behind `ESC [` and the number of a key. -/
def nextCoded (code : Nat) (final : UInt8) (rest : List UInt8) : Option (Item × List UInt8) :=
  if final = 0x7e then (codedKeys.lookup code).map fun vk => (plainKey vk, rest)
  else if final = 0x3b then
    match parameter rest with
    | some (param, final :: rest) =>
        if final = 0x7e then (codedKeys.lookup code).map fun vk => (modifiedKey vk param, rest)
        else if code = 1 then
          (cursorKeys.lookup final).map fun vk => (modifiedKey vk param, rest)
        else none
    | _ => none
  else none

/-- What is behind `ESC [`. -/
def nextControl (bytes : List UInt8) : Option (Item × List UInt8) :=
  match parameter bytes, bytes with
  | some (code, final :: rest), _ => nextCoded code final rest
  | none, final :: rest => nextFinal final rest
  | _, _ => none

/-- A control byte is a key of its own, or that of a letter with Ctrl. -/
def controlKey (b : UInt8) : Option Item :=
  if b = 0x7f then some back
  else if b = 0x09 then some (plainKey VK_TAB)
  else if b = 0x0d then some (plainKey VK_RETURN)
  else if 1 ≤ b ∧ b ≤ 0x1a then some ⟨b.toUInt32 + 0x40, false, false, true⟩
  else none

/-- The first word. `ESC` begins a longer one if it can, and else is the key. -/
def nextItem : Reader.Next UInt8 Item
  | 0x1b :: 0x7f :: rest => some (altBack, rest)
  | 0x1b :: 0x5b :: rest => nextControl rest
  | 0x1b :: 0x4f :: final :: rest =>
      (cursorKeys.lookup final).map fun vk => (plainKey vk, rest)
  | 0x1b :: rest => some (escape, rest)
  | b :: rest => (controlKey b).map fun item => (item, rest)
  | [] => none

/-! ## What is sent -/

/-- A key that is forwarded, in one of the modes of the cursor keys. -/
structure Message where
  vk : UInt32
  mods : UInt32
  app : Bool

namespace Message

/-- The bytes of a message. -/
def bytes (m : Message) : List UInt8 := encode m.vk m.mods m.app

/-- What can be read of a key: return and escape have no modifiers, tab only Shift and
backspace only Alt; Ctrl with I and M is tab and return, and with another letter has no
other modifier. -/
def keyItem (vk mods : UInt32) : Option Item :=
  if vk = VK_BACK then some ⟨vk, false, has mods MOD_ALT, false⟩
  else if vk = VK_TAB then some ⟨vk, has mods MOD_SHIFT, false, false⟩
  else if vk = VK_RETURN ∨ vk = VK_ESCAPE then some (plainKey vk)
  else if vk ∈ cursorKeys.map Prod.snd ∨ vk ∈ codedKeys.map Prod.snd then
    some ⟨vk, has mods MOD_SHIFT, has mods MOD_ALT, has mods MOD_CTRL⟩
  else if has mods MOD_CTRL = true ∧ 0x41 ≤ vk ∧ vk ≤ 0x5A then
    if vk = 0x49 then some (plainKey VK_TAB)
    else if vk = 0x4D then some (plainKey VK_RETURN)
    else some ⟨vk, false, false, true⟩
  else none

/-- What can be read of a message, if it is sent at all. -/
def item (m : Message) : Option Item := keyItem m.vk m.mods

end Message

/-! ## Words -/

/-- A word that is read as its item whatever is behind it, and cannot be taken for the
rest of a sequence. -/
structure Word (item : Item) (w : List UInt8) : Prop where
  ne_nil : w ≠ []
  next : ∀ rest, nextItem (w ++ rest) = some (item, rest)
  ne_escape : item ≠ escape
  head : w.head? ≠ some 0x5b ∧ w.head? ≠ some 0x4f
  del : w.head? = some 0x7f → w = [0x7f] ∧ item = back
  back : item = back → w.head? = some 0x7f

/-- A sequence that begins with `ESC [`. -/
theorem word_control {item : Item} {w : List UInt8}
    (hnext : ∀ rest, nextControl (w ++ rest) = some (item, rest))
    (hne : item ≠ escape ∧ item ≠ back) : Word item (0x1b :: 0x5b :: w) where
  ne_nil := List.cons_ne_nil _ _
  next rest := hnext rest
  ne_escape := hne.1
  head := ⟨nofun, nofun⟩
  del := nofun
  back h := absurd h hne.2

theorem parameter_none {b : UInt8} (hb : isDigit b = false) (rest : List UInt8) :
    parameter (b :: rest) = none := by
  simp [parameter, hb]

/-- The modifiers come back from the parameter. -/
theorem modifiedKey_modparam (vk mods : UInt32) :
    modifiedKey vk (modparam mods) =
      ⟨vk, has mods MOD_SHIFT, has mods MOD_ALT, has mods MOD_CTRL⟩ := by
  unfold modifiedKey modparam
  cases has mods MOD_SHIFT <;> cases has mods MOD_ALT <;> cases has mods MOD_CTRL <;> rfl

/-- Without a modifier there is no parameter. -/
theorem plainKey_of_modparam {mods : UInt32} (hmods : modparam mods = 1) (vk : UInt32) :
    plainKey vk = ⟨vk, has mods MOD_SHIFT, has mods MOD_ALT, has mods MOD_CTRL⟩ := by
  rw [← modifiedKey_modparam, hmods]
  rfl

theorem key_ne {vk : UInt32} (hvk : vk ≠ VK_ESCAPE ∧ vk ≠ VK_BACK) (shift alt ctrl : Bool) :
    (⟨vk, shift, alt, ctrl⟩ : Item) ≠ escape ∧ (⟨vk, shift, alt, ctrl⟩ : Item) ≠ back :=
  ⟨fun h => hvk.1 (Item.mk.inj h).1, fun h => hvk.2 (Item.mk.inj h).1⟩

/-! ## Keys -/

theorem cursorKeys_spec {final : UInt8} {vk : UInt32} (h : (final, vk) ∈ cursorKeys) :
    cursorKeys.lookup final = some vk ∧ isDigit final = false ∧
      (final ≠ 0x5a ∧ final ≠ 0x7e) ∧ vk ≠ VK_ESCAPE ∧ vk ≠ VK_BACK := by
  simp only [cursorKeys, List.mem_cons, List.not_mem_nil, or_false, Prod.mk.injEq] at h
  rcases h with ⟨rfl, rfl⟩ | ⟨rfl, rfl⟩ | ⟨rfl, rfl⟩ | ⟨rfl, rfl⟩ | ⟨rfl, rfl⟩ | ⟨rfl, rfl⟩ <;>
    exact ⟨rfl, by decide, ⟨by decide, by decide⟩, by decide, by decide⟩

/-- A number behind `ESC [`. -/
theorem nextControl_number (code : Nat) {final : UInt8} (hfinal : isDigit final = false)
    (rest : List UInt8) :
    nextControl (ascii (toString code) ++ final :: rest) = nextCoded code final rest := by
  simp only [nextControl, Input.parameter_toString code hfinal]

/-- A number of modifiers behind that of a key. -/
theorem nextCoded_param (code param : Nat) {final : UInt8} (hfinal : isDigit final = false)
    (rest : List UInt8) :
    nextCoded code 0x3b (ascii (toString param) ++ final :: rest) =
      if final = 0x7e then (codedKeys.lookup code).map fun vk => (modifiedKey vk param, rest)
      else if code = 1 then
        (cursorKeys.lookup final).map fun vk => (modifiedKey vk param, rest)
      else none := by
  rw [nextCoded, if_neg (by decide), if_pos rfl, Input.parameter_toString param hfinal]

/-- `csi_arrow` with the final byte of a key. -/
theorem word_csiArrow {final : UInt8} {vk : UInt32} (h : (final, vk) ∈ cursorKeys)
    (mods : UInt32) (app : Bool) :
    Word ⟨vk, has mods MOD_SHIFT, has mods MOD_ALT, has mods MOD_CTRL⟩
      (csiArrow final mods app) := by
  rcases cursorKeys_spec h with ⟨hlookup, hdigit, ⟨htab, htilde⟩, hne⟩
  unfold csiArrow
  split
  · have hbytes : 0x1B :: Keymap.ascii "[1;" ++ Keymap.ascii (toString (modparam mods)) ++ [final] =
        0x1b :: 0x5b :: (ascii (toString 1) ++ 0x3b :: (ascii (toString (modparam mods)) ++
          [final])) := by
      have hintro : Keymap.ascii "[1;" = 0x5b :: (ascii (toString 1) ++ [0x3b]) := by decide +kernel
      rw [hintro]
      simp
      rfl
    rw [hbytes]
    refine word_control (fun rest => ?_) (key_ne hne _ _ _)
    rw [List.append_assoc, List.cons_append, List.append_assoc, List.singleton_append,
      nextControl_number 1 (by decide), nextCoded_param 1 _ hdigit, if_neg htilde, if_pos rfl,
      hlookup, Option.map_some, modifiedKey_modparam]
  · rename_i hmods
    rw [not_not] at hmods
    rw [← plainKey_of_modparam hmods]
    have hplain := fun rest : List UInt8 => congrArg
      (fun o => Option.map (fun vk => (plainKey vk, rest)) o) hlookup
    split
    · exact {
        ne_nil := List.cons_ne_nil _ _
        next := hplain
        ne_escape := (key_ne hne _ _ _).1
        head := ⟨nofun, nofun⟩
        del := nofun
        back := fun h => absurd h (key_ne hne _ _ _).2 }
    · refine word_control (w := [final]) (fun rest => ?_) (key_ne hne _ _ _)
      simp only [List.singleton_append, nextControl, parameter_none hdigit, nextFinal,
        if_neg htab, hplain, Option.map_some]

/-- `csi_tilde` with the code of a key. -/
theorem word_csiTilde {code : Nat} {vk : UInt32} (h : codedKeys.lookup code = some vk)
    (hne : vk ≠ VK_ESCAPE ∧ vk ≠ VK_BACK) (mods : UInt32) :
    Word ⟨vk, has mods MOD_SHIFT, has mods MOD_ALT, has mods MOD_CTRL⟩
      (csiTilde code mods) := by
  have hopen : Keymap.ascii "[" = [0x5b] := by decide
  have hsemicolon : Keymap.ascii ";" = [0x3b] := by decide
  have htilde : Keymap.ascii "~" = [0x7e] := by decide
  unfold csiTilde
  rw [hopen, hsemicolon, htilde]
  split
  · refine word_control (w := ascii (toString code) ++ [0x3b] ++
      ascii (toString (modparam mods)) ++ [0x7e]) (fun rest => ?_) (key_ne hne _ _ _)
    rw [List.append_assoc, List.append_assoc, List.append_assoc, List.singleton_append,
      List.singleton_append, nextControl_number code (by decide),
      nextCoded_param code _ (by decide), if_pos rfl, h, Option.map_some, modifiedKey_modparam]
  · rename_i hmods
    rw [not_not] at hmods
    rw [← plainKey_of_modparam hmods]
    refine word_control (w := ascii (toString code) ++ [0x7e]) (fun rest => ?_)
      (key_ne hne _ _ _)
    rw [List.append_assoc, List.singleton_append, nextControl_number code (by decide), nextCoded,
      if_pos rfl, h, Option.map_some]
    rfl

/-- A byte that is a key of its own. -/
theorem word_single {b : UInt8} {item : Item} (hb : controlKey b = some item)
    (hne : b ≠ 0x1b ∧ b ≠ 0x5b ∧ b ≠ 0x4f) (hitem : item ≠ escape)
    (hback : b = 0x7f ↔ item = back) : Word item [b] where
  ne_nil := List.cons_ne_nil _ _
  next rest := by
    rw [List.singleton_append, nextItem]
    · rw [hb]
      rfl
    all_goals
      intros
      simp_all
  ne_escape := hitem
  head := by simp [hne]
  del h := by
    have hb : b = 0x7f := by simpa using h
    exact ⟨by rw [hb], hback.1 hb⟩
  back h := by rw [hback.2 h, List.head?_cons]

/-! ## Messages -/

namespace Message

/-- The words that are sent: none, the byte of Escape, or one that can be read. -/
inductive Sent (m : Message) : Prop where
  | silent (hbytes : m.bytes = []) (hitem : m.item = none)
  | escape (hbytes : m.bytes = [0x1b]) (hitem : m.item = some escape)
  | word (item : Item) (hword : Word item m.bytes) (hitem : m.item = some item)

/-! ## Keys of the keymap -/

theorem encode_cursor {final : UInt8} {vk : UInt32} (h : (final, vk) ∈ cursorKeys) (mods : UInt32)
    (app : Bool) :
    encode vk mods app = csiArrow final mods app ∧
      keyItem vk mods =
        some ⟨vk, has mods MOD_SHIFT, has mods MOD_ALT, has mods MOD_CTRL⟩ := by
  simp only [cursorKeys, List.mem_cons, List.not_mem_nil, or_false, Prod.mk.injEq] at h
  rcases h with ⟨rfl, rfl⟩ | ⟨rfl, rfl⟩ | ⟨rfl, rfl⟩ | ⟨rfl, rfl⟩ | ⟨rfl, rfl⟩ | ⟨rfl, rfl⟩ <;>
    exact ⟨rfl, rfl⟩

theorem encode_coded {code : Nat} {vk : UInt32} (h : (code, vk) ∈ codedKeys) (mods : UInt32)
    (app : Bool) :
    encode vk mods app = csiTilde code mods ∧
      keyItem vk mods =
        some ⟨vk, has mods MOD_SHIFT, has mods MOD_ALT, has mods MOD_CTRL⟩ ∧
      codedKeys.lookup code = some vk ∧ vk ≠ VK_ESCAPE ∧ vk ≠ VK_BACK := by
  simp only [codedKeys, List.mem_cons, List.not_mem_nil, or_false, Prod.mk.injEq] at h
  rcases h with ⟨rfl, rfl⟩ | ⟨rfl, rfl⟩ | ⟨rfl, rfl⟩ | ⟨rfl, rfl⟩ | ⟨rfl, rfl⟩ | ⟨rfl, rfl⟩ |
    ⟨rfl, rfl⟩ | ⟨rfl, rfl⟩ | ⟨rfl, rfl⟩ | ⟨rfl, rfl⟩ | ⟨rfl, rfl⟩ | ⟨rfl, rfl⟩ | ⟨rfl, rfl⟩ |
    ⟨rfl, rfl⟩ | ⟨rfl, rfl⟩ | ⟨rfl, rfl⟩ <;>
    exact ⟨rfl, rfl, rfl, by decide, by decide⟩

/-- The function keys have codes. -/
theorem functionKey_coded {vk : UInt32} (h : VK_F1 ≤ vk ∧ vk ≤ VK_F12) :
    vk ∈ codedKeys.map Prod.snd := by
  have hlow : 0x70 ≤ vk.toNat := UInt32.le_iff_toNat_le.1 h.1
  have hhigh : vk.toNat ≤ 0x7B := UInt32.le_iff_toNat_le.1 h.2
  have hvk : vk = UInt32.ofNat vk.toNat := (UInt32.ofNat_toNat).symm
  rw [hvk]
  generalize vk.toNat = n at hlow hhigh
  interval_cases n <;> decide

/-- No key has bytes besides these and the letters with Ctrl. -/
theorem encode_other {vk : UInt32} (hback : vk ≠ VK_BACK) (htab : vk ≠ VK_TAB)
    (hreturn : vk ≠ VK_RETURN) (hescape : vk ≠ VK_ESCAPE)
    (hcursor : vk ∉ cursorKeys.map Prod.snd) (hcoded : vk ∉ codedKeys.map Prod.snd)
    (mods : UInt32) (app : Bool) :
    encode vk mods app =
        (if has mods MOD_CTRL = true ∧ 0x41 ≤ vk ∧ vk ≤ 0x5A then [(vk - 0x41 + 1).toUInt8]
          else []) ∧
      keyItem vk mods =
        if has mods MOD_CTRL = true ∧ 0x41 ≤ vk ∧ vk ≤ 0x5A then
          if vk = 0x49 then some (plainKey VK_TAB)
          else if vk = 0x4D then some (plainKey VK_RETURN)
          else some ⟨vk, false, false, true⟩
        else none := by
  constructor
  · have hfunction : ¬(VK_F1 ≤ vk ∧ vk ≤ VK_F12) := fun h => hcoded (functionKey_coded h)
    simp only [cursorKeys, codedKeys, List.map_cons, List.map_nil, List.mem_cons,
      List.not_mem_nil, or_false, not_or] at hcursor hcoded
    simp only [encode, if_neg hback, if_neg htab, if_neg hreturn, if_neg hescape, hcursor, hcoded,
      if_false, if_neg hfunction]
  · have hneither : ¬(vk ∈ cursorKeys.map Prod.snd ∨ vk ∈ codedKeys.map Prod.snd) :=
      not_or.2 ⟨hcursor, hcoded⟩
    rw [keyItem, if_neg hback, if_neg htab, if_neg (not_or.2 ⟨hreturn, hescape⟩),
      if_neg hneither]

/-- Ctrl and a letter. -/
theorem letter_word {vk : UInt32} (h : 0x41 ≤ vk ∧ vk ≤ 0x5A) :
    ∃ item, (if vk = 0x49 then some (plainKey VK_TAB)
        else if vk = 0x4D then some (plainKey VK_RETURN)
        else some ⟨vk, false, false, true⟩) = some item ∧
      Word item [(vk - 0x41 + 1).toUInt8] := by
  have hlow : 0x41 ≤ vk.toNat := UInt32.le_iff_toNat_le.1 h.1
  have hhigh : vk.toNat ≤ 0x5A := UInt32.le_iff_toNat_le.1 h.2
  have hvk : vk = UInt32.ofNat vk.toNat := (UInt32.ofNat_toNat).symm
  rw [hvk]
  generalize vk.toNat = n at hlow hhigh
  interval_cases n <;>
    exact ⟨_, rfl, word_single rfl ⟨by decide, by decide, by decide⟩ (by decide) (by decide)⟩

theorem key_sent (vk mods : UInt32) (app : Bool) : (Message.mk vk mods app).Sent := by
  by_cases hback : vk = VK_BACK
  · subst hback
    refine .word ⟨VK_BACK, false, has mods MOD_ALT, false⟩ ?_ rfl
    cases halt : has mods MOD_ALT with
    | false =>
        have hbytes : encode VK_BACK mods app = [0x7f] := by simp [encode, halt]
        simp only [bytes, hbytes]
        exact word_single rfl ⟨by decide, by decide, by decide⟩ (by decide) (by decide)
    | true =>
        have hbytes : encode VK_BACK mods app = [0x1b, 0x7f] := by simp [encode, halt]
        simp only [bytes, hbytes]
        exact ⟨List.cons_ne_nil _ _, fun _ => rfl, by decide, by decide, by decide, by decide⟩
  by_cases htab : vk = VK_TAB
  · subst htab
    refine .word ⟨VK_TAB, has mods MOD_SHIFT, false, false⟩ ?_ rfl
    cases hshift : has mods MOD_SHIFT with
    | false =>
        have hbytes : encode VK_TAB mods app = [0x09] := by
          simp [encode, hshift, VK_TAB, VK_BACK]
        simp only [bytes, hbytes]
        exact word_single rfl ⟨by decide, by decide, by decide⟩ (by decide) (by decide)
    | true =>
        have hbytes : encode VK_TAB mods app = [0x1b, 0x5b, 0x5a] := by
          simp only [encode, hshift, VK_TAB, VK_BACK]
          rfl
        simp only [bytes, hbytes]
        exact word_control (w := [0x5a]) (fun _ => rfl) ⟨by decide, by decide⟩
  by_cases hreturn : vk = VK_RETURN
  · subst hreturn
    exact .word (plainKey VK_RETURN)
      (word_single rfl ⟨by decide, by decide, by decide⟩ (by decide) (by decide)) rfl
  by_cases hescape : vk = VK_ESCAPE
  · subst hescape
    exact .escape rfl rfl
  by_cases hcursor : vk ∈ cursorKeys.map Prod.snd
  · rcases List.mem_map.1 hcursor with ⟨⟨final, vk⟩, hmem, rfl⟩
    rcases encode_cursor hmem mods app with ⟨hbytes, hitem⟩
    refine .word _ ?_ hitem
    simp only [bytes, hbytes]
    exact word_csiArrow hmem mods app
  by_cases hcoded : vk ∈ codedKeys.map Prod.snd
  · rcases List.mem_map.1 hcoded with ⟨⟨code, vk⟩, hmem, rfl⟩
    rcases encode_coded hmem mods app with ⟨hbytes, hitem, hlookup, hne⟩
    refine .word _ ?_ hitem
    simp only [bytes, hbytes]
    exact word_csiTilde hlookup hne mods
  rcases encode_other hback htab hreturn hescape hcursor hcoded mods app with ⟨hbytes, hitem⟩
  by_cases hletter : has mods MOD_CTRL = true ∧ 0x41 ≤ vk ∧ vk ≤ 0x5A
  · rw [if_pos hletter] at hbytes hitem
    rcases letter_word hletter.2 with ⟨item, hread, hword⟩
    refine .word item ?_ (hitem.trans hread)
    simp only [bytes, hbytes]
    exact hword
  · rw [if_neg hletter] at hbytes hitem
    exact .silent hbytes hitem

theorem sent (m : Message) : m.Sent := key_sent m.vk m.mods m.app

end Message

/-! ## Streams -/

/-- What is sent. -/
def stream (ms : List Message) : List UInt8 := ms.flatMap Message.bytes

/-- What can be read of it. -/
def items (ms : List Message) : List Item := ms.filterMap Message.item

/-- A stream is read with each Escape and the Backspace behind it as one. It does not
begin like the rest of a sequence, and with DEL exactly if Backspace is first. -/
structure Reads (bytes : List UInt8) (is : List Item) : Prop where
  whole : read nextItem bytes = some (merge escape back altBack is)
  head : bytes.head? ≠ some 0x5b ∧ bytes.head? ≠ some 0x4f
  del : ∀ rest, bytes = 0x7f :: rest →
    ∃ is', is = back :: is' ∧ read nextItem rest = some (merge escape back altBack is')
  other : bytes.head? ≠ some 0x7f → is.head? ≠ some back

theorem reads_nil : Reads [] [] where
  whole := rfl
  head := ⟨nofun, nofun⟩
  del := nofun
  other _ := nofun

/-- Escape in front of what does not continue it is a word. -/
theorem nextItem_escape {bytes : List UInt8} (hdel : bytes.head? ≠ some 0x7f)
    (hhead : bytes.head? ≠ some 0x5b ∧ bytes.head? ≠ some 0x4f) :
    nextItem (0x1b :: bytes) = some (escape, bytes) := by
  rw [nextItem]
  · rintro rest rfl
    exact hdel rfl
  · rintro rest rfl
    exact hhead.1 rfl
  · rintro final rest rfl
    exact hhead.2 rfl

/-- Escape waits for what is behind it. -/
theorem Reads.escape {bytes : List UInt8} {is : List Item} (h : Reads bytes is) :
    Reads (0x1b :: bytes) (escape :: is) where
  whole := by
    by_cases hdel : bytes.head? = some 0x7f
    · -- Backspace is taken with it
      cases bytes with
      | nil => cases hdel
      | cons b rest =>
          obtain rfl : b = 0x7f := by simpa using hdel
          rcases h.del rest rfl with ⟨is', rfl, hrest⟩
          rw [Reader.merge_pair]
          exact Reader.read_append (w := [0x1b, 0x7f]) (List.cons_ne_nil _ _) rfl hrest
    · rw [Reader.merge_cons_of_head (h.other hdel)]
      exact Reader.read_append (w := [0x1b]) (List.cons_ne_nil _ _)
        (nextItem_escape hdel h.head) h.whole
  head := ⟨nofun, nofun⟩
  del := nofun
  other _ := by
    rw [List.head?_cons, ne_eq, Option.some.injEq]
    decide

/-- A word is read by itself. -/
theorem Reads.word {bytes w : List UInt8} {is : List Item} {item : Item} (h : Reads bytes is)
    (hword : Word item w) : Reads (w ++ bytes) (item :: is) where
  whole := by
    rw [Reader.merge_cons_of_ne hword.ne_escape]
    exact Reader.read_append hword.ne_nil (hword.next bytes) h.whole
  head := by
    rw [List.head?_append_of_ne_nil _ hword.ne_nil]
    exact hword.head
  del rest hbytes := by
    have hhead : w.head? = some 0x7f := by
      rw [← List.head?_append_of_ne_nil _ hword.ne_nil, hbytes]
      rfl
    rcases hword.del hhead with ⟨rfl, rfl⟩
    cases hbytes
    exact ⟨is, rfl, h.whole⟩
  other hhead := by
    rw [List.head?_append_of_ne_nil _ hword.ne_nil] at hhead
    rw [List.head?_cons, ne_eq, Option.some.injEq]
    exact fun hitem => hhead (hword.back hitem)

/-- What a program reads of the messages. -/
theorem reads_messages (ms : List Message) : Reads (stream ms) (items ms) := by
  induction ms with
  | nil => exact reads_nil
  | cons m ms ih =>
      rw [stream, items, List.flatMap_cons, List.filterMap_cons]
      cases m.sent with
      | silent hbytes hitem =>
          rw [hbytes, hitem]
          exact ih
      | escape hbytes hitem =>
          rw [hbytes, hitem]
          exact ih.escape
      | word item hword hitem =>
          rw [hitem]
          exact ih.word hword

end RataShell.InputStream
