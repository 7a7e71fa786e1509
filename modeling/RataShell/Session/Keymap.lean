/-!
# The keymap

`keymap.rs`: the bytes that a virtual key sends.

* `encode_ne_nil_iff`: the keys that send some.
-/

namespace RataShell.Keymap

/-! ## Modifiers -/

def MOD_SHIFT : UInt32 := 0x01
def MOD_CTRL : UInt32 := 0x02
def MOD_ALT : UInt32 := 0x04

/-- The modifier is in the mask. -/
def has (mods flag : UInt32) : Bool := mods &&& flag != 0

/-- `modparam`. -/
def modparam (mods : UInt32) : Nat :=
  1 + (has mods MOD_SHIFT).toNat + 2 * (has mods MOD_ALT).toNat + 4 * (has mods MOD_CTRL).toNat

/-! ## Sequences -/

/-- The bytes of an ASCII string. -/
def ascii (s : String) : List UInt8 := s.toList.map fun ch => UInt8.ofNat ch.toNat

/-- `csi_arrow`. -/
def csiArrow (letter : UInt8) (mods : UInt32) (app : Bool) : List UInt8 :=
  if modparam mods ≠ 1 then 0x1B :: ascii "[1;" ++ ascii (toString (modparam mods)) ++ [letter]
  else if app then 0x1B :: ascii "O" ++ [letter]
  else 0x1B :: ascii "[" ++ [letter]

/-- `csi_tilde`, which `f_key` repeats. -/
def csiTilde (code : Nat) (mods : UInt32) : List UInt8 :=
  if modparam mods ≠ 1 then
    0x1B :: ascii "[" ++ ascii (toString code) ++ ascii ";" ++ ascii (toString (modparam mods)) ++
      ascii "~"
  else 0x1B :: ascii "[" ++ ascii (toString code) ++ ascii "~"

/-- The codes of F1 to F12. -/
def functionCodes : List Nat := [11, 12, 13, 14, 15, 17, 18, 19, 20, 21, 23, 24]

/-! ## Keys -/

def VK_BACK : UInt32 := 0x08
def VK_TAB : UInt32 := 0x09
def VK_RETURN : UInt32 := 0x0D
def VK_ESCAPE : UInt32 := 0x1B
def VK_PRIOR : UInt32 := 0x21
def VK_NEXT : UInt32 := 0x22
def VK_END : UInt32 := 0x23
def VK_HOME : UInt32 := 0x24
def VK_LEFT : UInt32 := 0x25
def VK_UP : UInt32 := 0x26
def VK_RIGHT : UInt32 := 0x27
def VK_DOWN : UInt32 := 0x28
def VK_INSERT : UInt32 := 0x2D
def VK_DELETE : UInt32 := 0x2E
def VK_F1 : UInt32 := 0x70
def VK_F12 : UInt32 := 0x7B

/-- `encode`. -/
def encode (vk mods : UInt32) (app : Bool) : List UInt8 :=
  if vk = VK_BACK then if has mods MOD_ALT then [0x1B, 0x7F] else [0x7F]
  else if vk = VK_TAB then if has mods MOD_SHIFT then 0x1B :: ascii "[Z" else [0x09]
  else if vk = VK_RETURN then [0x0D]
  else if vk = VK_ESCAPE then [0x1B]
  else if vk = VK_UP then csiArrow 0x41 mods app
  else if vk = VK_DOWN then csiArrow 0x42 mods app
  else if vk = VK_RIGHT then csiArrow 0x43 mods app
  else if vk = VK_LEFT then csiArrow 0x44 mods app
  else if vk = VK_HOME then csiArrow 0x48 mods app
  else if vk = VK_END then csiArrow 0x46 mods app
  else if vk = VK_INSERT then csiTilde 2 mods
  else if vk = VK_DELETE then csiTilde 3 mods
  else if vk = VK_PRIOR then csiTilde 5 mods
  else if vk = VK_NEXT then csiTilde 6 mods
  else if VK_F1 ≤ vk ∧ vk ≤ VK_F12 then
    csiTilde (functionCodes.getD (vk - VK_F1).toNat 0) mods
  -- Ctrl and a letter give the control byte
  else if has mods MOD_CTRL = true ∧ 0x41 ≤ vk ∧ vk ≤ 0x5A then [(vk - 0x41 + 1).toUInt8]
  else []

/-- The keys that send some bytes whatever the modifiers are. -/
def sequenceKeys : List UInt32 :=
  [VK_BACK, VK_TAB, VK_RETURN, VK_ESCAPE, VK_UP, VK_DOWN, VK_RIGHT, VK_LEFT, VK_HOME, VK_END,
   VK_INSERT, VK_DELETE, VK_PRIOR, VK_NEXT]

theorem csiArrow_ne_nil (letter : UInt8) (mods : UInt32) (app : Bool) :
    csiArrow letter mods app ≠ [] := by
  unfold csiArrow
  repeat' split
  all_goals simp

theorem csiTilde_ne_nil (code : Nat) (mods : UInt32) : csiTilde code mods ≠ [] := by
  unfold csiTilde
  split <;> simp

theorem ite_ne_nil {p : Prop} [Decidable p] {a b : List UInt8} (ha : a ≠ []) :
    (if p then a else b) ≠ [] ↔ p ∨ b ≠ [] := by
  by_cases hp : p <;> simp [hp, ha]

/-- The keys that send some bytes. -/
theorem encode_ne_nil_iff (vk mods : UInt32) (app : Bool) :
    encode vk mods app ≠ [] ↔
      vk ∈ sequenceKeys ∨ (VK_F1 ≤ vk ∧ vk ≤ VK_F12) ∨
        has mods MOD_CTRL = true ∧ 0x41 ≤ vk ∧ vk ≤ 0x5A := by
  have hback : (if has mods MOD_ALT then [0x1B, 0x7F] else [0x7F] : List UInt8) ≠ [] := by
    split <;> simp
  have htab : (if has mods MOD_SHIFT then 0x1B :: ascii "[Z" else [0x09] : List UInt8) ≠ [] := by
    split <;> simp
  have harrow := fun letter => csiArrow_ne_nil letter mods app
  have htilde := fun code => csiTilde_ne_nil code mods
  rw [encode, ite_ne_nil hback, ite_ne_nil htab, ite_ne_nil (List.cons_ne_nil _ _),
    ite_ne_nil (List.cons_ne_nil _ _), ite_ne_nil (harrow _), ite_ne_nil (harrow _),
    ite_ne_nil (harrow _), ite_ne_nil (harrow _), ite_ne_nil (harrow _), ite_ne_nil (harrow _),
    ite_ne_nil (htilde _), ite_ne_nil (htilde _), ite_ne_nil (htilde _), ite_ne_nil (htilde _),
    ite_ne_nil (htilde _), ite_ne_nil (List.cons_ne_nil _ _)]
  simp only [sequenceKeys, List.mem_cons, List.not_mem_nil, or_false, ne_eq, not_true_eq_false,
    or_assoc]

example : encode 0x74 MOD_SHIFT true = ascii "\x1b[15;2~" := by decide +kernel

example : encode 0x20 MOD_CTRL false = [] := by decide +kernel

end RataShell.Keymap
