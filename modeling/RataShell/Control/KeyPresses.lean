import RataShell.Session.Keymap
import RataShell.Control.LiveEdge
import RataShell.Control.Typing

/-!
# Key presses

A press of a key comes as a `WM_KEYDOWN` and as the `WM_CHAR`s that Windows makes of
it. `WMKeyDown` forwards special keys, `WMChar` leaves control characters out.

* `encoded_ne_nil_iff`: what is forwarded is what `encode` has bytes for.
* `presses_once_iff`: each press is sent once exactly if special keys make control
  characters only, and other keys none.
-/

namespace RataShell.Input

open Term (Alacritty Lawful Op Plain plain plain_lawful)

variable {T R : Type}

/-- A press: the virtual key, the modifiers and the clipboard at `WM_KEYDOWN`, and a unit
for each `WM_CHAR`. -/
structure KeyPress where
  vk : UInt16
  mods : UInt32
  clipboard : Text
  chars : Text
deriving DecidableEq, Repr

namespace KeyPress

/-- The bytes that the keymap has for the key. -/
def encoded (app : Bool) (p : KeyPress) : List UInt8 := Keymap.encode p.vk.toUInt32 p.mods app

/-- The press sent once: as a key if the keymap has bytes for it, else each of its
characters. -/
def once (app : Bool) (p : KeyPress) : List Sent :=
  if p.encoded app = [] then (p.chars.map encodeUnit).map .text else [.key p.vk p.mods]

/-- A special key, or Ctrl and a letter. -/
def Special (p : KeyPress) : Prop :=
  p.vk ∈ forwardedKeys ∨ (p.mods &&& RATA_MOD_CTRL ≠ 0 ∧ 0x41 ≤ p.vk ∧ p.vk ≤ 0x5A)

instance (p : KeyPress) : Decidable p.Special := inferInstanceAs (Decidable (_ ∨ _))

/-- The characters are control characters if the key is special, and else none is. -/
def Divided (p : KeyPress) : Prop := ∀ u ∈ p.chars, u.toNat < 0x20 ↔ p.Special

instance (p : KeyPress) : Decidable p.Divided :=
  List.decidableBAll (fun u : UInt16 => u.toNat < 0x20 ↔ p.Special) p.chars

/-- A shortcut of the component: Ctrl+Shift with C, F, V or the space bar, and F3 with a
pattern to search for. -/
def Shortcut (pattern : String) (p : KeyPress) : Prop :=
  (p.vk ∈ [0x43, 0x46, 0x56, VK_SPACE] ∧ p.mods &&& RATA_MOD_CTRL ≠ 0 ∧
    p.mods &&& RATA_MOD_SHIFT ≠ 0) ∨ (p.vk = VK_F3 ∧ pattern ≠ "")

instance (pattern : String) (p : KeyPress) : Decidable (p.Shortcut pattern) :=
  inferInstanceAs (Decidable (_ ∨ _))

/-- The keys of either list. -/
theorem key_iff (vk : UInt16) :
    vk.toUInt32 ∈ Keymap.sequenceKeys ∨
        (Keymap.VK_F1 ≤ vk.toUInt32 ∧ vk.toUInt32 ≤ Keymap.VK_F12) ↔ vk ∈ forwardedKeys := by
  simp only [Keymap.sequenceKeys, forwardedKeys, List.mem_cons, List.not_mem_nil, or_false,
    ← UInt32.toNat_inj, ← UInt16.toNat_inj, UInt32.le_iff_toNat_le, UInt16.toNat_toUInt32]
  simp only [Keymap.VK_BACK, Keymap.VK_TAB, Keymap.VK_RETURN, Keymap.VK_ESCAPE, Keymap.VK_PRIOR,
    Keymap.VK_NEXT, Keymap.VK_END, Keymap.VK_HOME, Keymap.VK_LEFT, Keymap.VK_UP, Keymap.VK_RIGHT,
    Keymap.VK_DOWN, Keymap.VK_INSERT, Keymap.VK_DELETE, Keymap.VK_F1, Keymap.VK_F12, VK_ESCAPE,
    VK_PRIOR, VK_NEXT, VK_END, VK_HOME, VK_LEFT, VK_UP, VK_RIGHT, VK_DOWN, UInt32.reduceToNat,
    UInt16.reduceToNat]
  omega

/-- `WMKeyDown` forwards the keys that the keymap knows. -/
theorem encoded_ne_nil_iff (app : Bool) (p : KeyPress) : p.encoded app ≠ [] ↔ p.Special := by
  have hctrl : Keymap.has p.mods Keymap.MOD_CTRL = true ↔ p.mods &&& RATA_MOD_CTRL ≠ 0 := by
    simp [Keymap.has, Keymap.MOD_CTRL, RATA_MOD_CTRL]
  have hletter : (0x41 ≤ p.vk.toUInt32 ∧ p.vk.toUInt32 ≤ 0x5A) ↔ (0x41 ≤ p.vk ∧ p.vk ≤ 0x5A) := by
    simp [UInt32.le_iff_toNat_le, UInt16.le_iff_toNat_le]
  rw [encoded, Keymap.encode_ne_nil_iff, ← or_assoc, key_iff, hctrl, hletter, Special]

end KeyPress

namespace Control

variable (A : Alacritty T R)

/-- Keys are input for the shell. -/
structure Listening (c : Control T) : Prop extends c.Ready A where
  composing : c.composing = false

/-- A press: `WM_KEYDOWN`, and then its `WM_CHAR`s. -/
def press (p : KeyPress) (c : Control T) : Control T :=
  (c.wmKeyDown A p.vk p.mods p.clipboard).typed A p.chars

def presses (ps : List KeyPress) (c : Control T) : Control T :=
  ps.foldl (fun c p => c.press A p) c

variable {A} {c : Control T}

/-! ## What is kept -/

/-- The composition and the pattern to search for. -/
def search (c : Control T) : Bool × String := (c.composing, c.lastSearchPattern)

theorem search_aside : Aside (search (T := T)) := fun _ _ _ _ => rfl

theorem Ready.forwardKey (hA : Lawful A) (h : c.Ready A) (vk : UInt16) (mods : UInt32) :
    (c.forwardKey A vk mods).Ready A :=
  h.of_toLiveEdge hA (terminal_perform (k := .forward vk mods) rfl h.session)
    (readOnly_aside.forwardKey vk mods)

/-! ## One press -/

/-- Of the rules of `WMKeyDown`, only those that forward are left. -/
theorem Listening.keyAction (h : c.Listening A) {p : KeyPress}
    (hown : ¬p.Shortcut c.lastSearchPattern) :
    c.keyAction A p.vk p.mods p.clipboard =
      if p.Special then .forward p.vk p.mods else .ignore := by
  have hopen : ¬(c.readOnly = true ∨ c.session.isNone = true) := by
    simp [h.readOnly, h.session]
  have hcomposing : ¬c.composing = true := by simp [h.composing]
  have hvi : ¬c.viModeActive A = true := by simp [h.viMode]
  have hshortcut : ∀ vk ∈ [0x43, 0x46, 0x56, VK_SPACE],
      ¬(p.vk = vk ∧ p.mods &&& RATA_MOD_CTRL ≠ 0 ∧ p.mods &&& RATA_MOD_SHIFT ≠ 0) := by
    intro vk hmem ⟨heq, hctrl, hshift⟩
    exact hown (.inl ⟨heq ▸ hmem, hctrl, hshift⟩)
  have hsearch : ¬(p.vk = VK_F3 ∧ c.lastSearchPattern ≠ "") := fun hf3 => hown (.inr hf3)
  simp only [Control.keyAction, if_neg hopen, if_neg hcomposing, if_neg hvi, if_neg hsearch,
    if_neg (hshortcut 0x43 (by decide)), if_neg (hshortcut 0x46 (by decide)),
    if_neg (hshortcut 0x56 (by decide)), if_neg (hshortcut VK_SPACE (by decide))]
  -- the two rules forward alike
  by_cases hkey : p.vk ∈ forwardedKeys
  · rw [if_pos hkey, if_pos (.inl hkey)]
  · by_cases hletter : p.mods &&& RATA_MOD_CTRL ≠ 0 ∧ 0x41 ≤ p.vk ∧ p.vk ≤ 0x5A
    · rw [if_neg hkey, if_pos hletter, if_pos (.inr hletter)]
    · rw [if_neg hkey, if_neg hletter, if_neg fun h => h.elim hkey hletter]

/-- A press sends a special key, and each character that is no control character. -/
theorem Listening.press (hA : Lawful A) (h : c.Listening A) {p : KeyPress}
    (hown : ¬p.Shortcut c.lastSearchPattern) :
    (c.press A p).sent = c.sent ++ ((if p.Special then [.key p.vk p.mods] else []) ++
        ((p.chars.filter fun u => decide (0x20 ≤ u.toNat)).map encodeUnit).map .text) ∧
      (c.press A p).Listening A ∧ (c.press A p).lastSearchPattern = c.lastSearchPattern := by
  have hdown : c.wmKeyDown A p.vk p.mods p.clipboard =
      if p.Special then c.forwardKey A p.vk p.mods else c := by
    rw [wmKeyDown, h.keyAction hown]
    split <;> rfl
  -- forwarding goes to the live edge, as typing does
  have hready : (c.wmKeyDown A p.vk p.mods p.clipboard).Ready A := by
    rw [hdown]
    split
    · exact h.toReady.forwardKey hA p.vk p.mods
    · exact h.toReady
  have hsent : (c.wmKeyDown A p.vk p.mods p.clipboard).sent =
      c.sent ++ if p.Special then [.key p.vk p.mods] else [] := by
    rw [hdown]
    split
    · simp [forwardKey, rataSendKey]
    · exact (List.append_nil _).symm
  have hkept : (c.wmKeyDown A p.vk p.mods p.clipboard).search = c.search := by
    rw [hdown]
    split
    · exact search_aside.forwardKey p.vk p.mods
    · rfl
  rcases hready.typed hA p.chars with ⟨htyped, hready'⟩
  have hsearch : (c.press A p).search = c.search :=
    (hready.typed_aside hA search_aside p.chars).trans hkept
  have hcomposing : (c.press A p).composing = false :=
    (congrArg Prod.fst hsearch).trans h.composing
  have hpattern : (c.press A p).lastSearchPattern = c.lastSearchPattern :=
    congrArg Prod.snd hsearch
  refine ⟨?_, ⟨hready', hcomposing⟩, hpattern⟩
  show ((c.wmKeyDown A p.vk p.mods p.clipboard).typed A p.chars).sent = _
  rw [htyped, hsent, List.append_assoc]

/-- It is sent once exactly if its characters are divided from its key. -/
theorem Listening.press_once_iff (hA : Lawful A) (h : c.Listening A) {p : KeyPress}
    (hown : ¬p.Shortcut c.lastSearchPattern) (app : Bool) :
    (c.press A p).sent = c.sent ++ p.once app ↔ p.Divided := by
  rw [(h.press hA hown).1, List.append_cancel_left_eq, KeyPress.once, KeyPress.Divided]
  have hbytes := p.encoded_ne_nil_iff app
  by_cases hspecial : p.Special
  · rw [if_pos hspecial, if_neg (hbytes.2 hspecial)]
    simp only [List.append_right_eq_self, List.map_eq_nil_iff, List.filter_eq_nil_iff,
      decide_eq_true_eq, not_le, hspecial, iff_true]
  · have hnone : p.encoded app = [] := by
      by_contra hsome
      exact hspecial (hbytes.1 hsome)
    rw [if_neg hspecial, if_pos hnone, List.nil_append]
    simp only [hspecial, iff_false, not_lt]
    constructor
    · -- a character that is left out is missing in the length
      intro heq
      have hlength := congrArg List.length heq
      simp only [List.length_map] at hlength
      have hall := List.length_filter_eq_length_iff.1 hlength
      intro u hu
      exact of_decide_eq_true (hall u hu)
    · intro hall
      rw [List.filter_eq_self.2 fun u hu => decide_eq_true (hall u hu)]

/-! ## A sequence of presses -/

theorem Listening.presses (hA : Lawful A) (h : c.Listening A) {ps : List KeyPress}
    (hown : ∀ p ∈ ps, ¬p.Shortcut c.lastSearchPattern) :
    (c.presses A ps).Listening A ∧
      (c.presses A ps).lastSearchPattern = c.lastSearchPattern := by
  induction ps generalizing c with
  | nil => exact ⟨h, rfl⟩
  | cons p ps ih =>
      rw [List.forall_mem_cons] at hown
      rcases h.press hA hown.1 with ⟨_, hlistening, hpattern⟩
      have hrest := ih hlistening (by rw [hpattern]; exact hown.2)
      rw [hpattern] at hrest
      exact hrest

end Control

/-! ## Keys of a keyboard -/

/-- Ctrl+Backspace, of which Windows makes U+007F. -/
def ctrlBackspace : KeyPress := ⟨0x08, RATA_MOD_CTRL, [], [0x7F]⟩

/-- Ctrl+[, of which it makes U+001B. -/
def ctrlBracket : KeyPress := ⟨0xDB, RATA_MOD_CTRL, [], [0x1B]⟩

def letter : KeyPress := ⟨0x41, 0, [], [0x61]⟩

def ctrlC : KeyPress := ⟨0x43, RATA_MOD_CTRL, [], [0x03]⟩

def enter : KeyPress := ⟨0x0D, 0, [], [0x0D]⟩

theorem atPrompt_listening : atPrompt.Listening plain :=
  ⟨atPrompt_ready, by decide +kernel⟩

end RataShell.Input
