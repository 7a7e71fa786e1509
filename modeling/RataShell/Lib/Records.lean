import Mathlib.Algebra.Order.Ring.Nat
import Mathlib.Data.List.Basic
import Mathlib.Tactic.Common

/-!
# Records in a buffer of bytes

Values of a fixed size are laid out in a buffer at offsets that the code computes:

1. **Codecs**: `Codec` carries its size and its round trip; `uint`, `pad`, `pair` and
   `map` build the codec of a record from those of its fields.
2. **Offsets**: `readAt`, `readArray` and `write`, and what they find in a buffer that
   is known as parts one behind the other (`readAt_append`, `readArray_append`,
   `write_append`).
-/

namespace Records

universe u v

/-- A layout of the values of a type in `size` bytes. -/
structure Codec (α : Type u) where
  size : Nat
  encode : α → List UInt8
  decode : List UInt8 → α
  length_encode : ∀ a, (encode a).length = size
  decode_encode : ∀ a, decode (encode a) = a

attribute [simp] Codec.length_encode Codec.decode_encode

variable {α : Type u} {β : Type v}

/-! ## Little-endian numbers -/

/-- The lowest `k` bytes of a number, the lowest first. -/
def leBytes : Nat → Nat → List UInt8
  | 0, _ => []
  | k + 1, n => UInt8.ofNat n :: leBytes k (n / 256)

/-- The number of bytes of which the first is the lowest. -/
def ofLe : List UInt8 → Nat
  | [] => 0
  | b :: bs => b.toNat + 256 * ofLe bs

@[simp] theorem length_leBytes (k n : Nat) : (leBytes k n).length = k := by
  induction k generalizing n with
  | zero => rfl
  | succ k ih => simp [leBytes, ih]

theorem ofLe_leBytes (k n : Nat) : ofLe (leBytes k n) = n % 256 ^ k := by
  induction k generalizing n with
  | zero => simp [leBytes, ofLe, Nat.mod_one]
  | succ k ih =>
      have hlow : (UInt8.ofNat n).toNat = n % 256 := by simp
      rw [leBytes, ofLe, ih, hlow, pow_succ', Nat.mod_mul]

/-! ## Codecs -/

namespace Codec

/-- The codec of a type of numbers below `256 ^ k`. -/
def uint (k : Nat) (toNat : α → Nat) (ofNat : Nat → α) (hlt : ∀ a, toNat a < 256 ^ k)
    (hof : ∀ a, ofNat (toNat a) = a) : Codec α where
  size := k
  encode a := leBytes k (toNat a)
  decode bs := ofNat (ofLe bs)
  length_encode a := length_leBytes k (toNat a)
  decode_encode a := by rw [ofLe_leBytes, Nat.mod_eq_of_lt (hlt a), hof]

def u8 : Codec UInt8 :=
  uint 1 UInt8.toNat UInt8.ofNat (fun a => a.toNat_lt) fun _ => UInt8.ofNat_toNat

def u16 : Codec UInt16 :=
  uint 2 UInt16.toNat UInt16.ofNat (fun a => a.toNat_lt) fun _ => UInt16.ofNat_toNat

def u32 : Codec UInt32 :=
  uint 4 UInt32.toNat UInt32.ofNat (fun a => a.toNat_lt) fun _ => UInt32.ofNat_toNat

def u64 : Codec UInt64 :=
  uint 8 UInt64.toNat UInt64.ofNat (fun a => a.toNat_lt) fun _ => UInt64.ofNat_toNat

/-- `n` bytes that hold nothing. -/
def pad (n : Nat) : Codec Unit where
  size := n
  encode _ := List.replicate n 0
  decode _ := ()
  length_encode _ := by simp
  decode_encode _ := rfl

/-- One value behind the other. -/
def pair (C : Codec α) (D : Codec β) : Codec (α × β) where
  size := C.size + D.size
  encode p := C.encode p.1 ++ D.encode p.2
  decode bs := (C.decode (bs.take C.size), D.decode (bs.drop C.size))
  length_encode p := by simp
  decode_encode p := by
    have htake : (C.encode p.1 ++ D.encode p.2).take C.size = C.encode p.1 :=
      List.take_left' (C.length_encode p.1)
    have hdrop : (C.encode p.1 ++ D.encode p.2).drop C.size = D.encode p.2 :=
      List.drop_left' (C.length_encode p.1)
    simp [htake, hdrop]

/-- The codec of a record, from the tuple of its fields. -/
def map (C : Codec α) (mk : α → β) (fields : β → α) (hmk : ∀ b, mk (fields b) = b) :
    Codec β where
  size := C.size
  encode b := C.encode (fields b)
  decode bs := mk (C.decode bs)
  length_encode b := C.length_encode (fields b)
  decode_encode b := by rw [C.decode_encode, hmk]

/-! ## Offsets -/

/-- The values of an array. -/
def encodeAll (C : Codec α) (l : List α) : List UInt8 := l.flatMap C.encode

/-- The value at an offset. -/
def readAt (C : Codec α) (buf : List UInt8) (off : Nat) : α :=
  C.decode ((buf.drop off).take C.size)

/-- The `n` values from an offset on. -/
def readArray (C : Codec α) (buf : List UInt8) : Nat → Nat → List α
  | _, 0 => []
  | off, n + 1 => C.readAt buf off :: C.readArray buf (off + C.size) n

variable (C : Codec α)

@[simp] theorem encodeAll_cons (a : α) (l : List α) :
    C.encodeAll (a :: l) = C.encode a ++ C.encodeAll l := rfl

@[simp] theorem length_encodeAll (l : List α) : (C.encodeAll l).length = l.length * C.size := by
  induction l with
  | nil => simp [encodeAll]
  | cons a l ih => simp [ih, Nat.add_mul, Nat.add_comm]

theorem readAt_append (pre post : List UInt8) (a : α) {off : Nat} (hoff : off = pre.length) :
    C.readAt (pre ++ (C.encode a ++ post)) off = a := by
  subst hoff
  rw [readAt, List.drop_left, List.take_left' (C.length_encode a), C.decode_encode]

theorem readArray_append (pre post : List UInt8) (l : List α) {off : Nat}
    (hoff : off = pre.length) :
    C.readArray (pre ++ (C.encodeAll l ++ post)) off l.length = l := by
  induction l generalizing pre off with
  | nil => rfl
  | cons a l ih =>
      have hhead : C.readAt (pre ++ (C.encode a ++ (C.encodeAll l ++ post))) off = a :=
        C.readAt_append _ _ a hoff
      have hnext : off + C.size = (pre ++ C.encode a).length := by simp [hoff]
      have htail := ih _ hnext
      rw [List.append_assoc] at htail
      rw [encodeAll_cons, List.append_assoc, List.length_cons, readArray, hhead, htail]

end Codec

/-- The buffer with `bytes` at an offset. -/
def write (off : Nat) (bytes buf : List UInt8) : List UInt8 :=
  buf.take off ++ (bytes ++ buf.drop (off + bytes.length))

theorem write_nil (off : Nat) (buf : List UInt8) : write off [] buf = buf := by simp [write]

/-- What is written takes the place of a part of the same length. -/
theorem write_append (pre old post bytes : List UInt8) {off : Nat} (hoff : off = pre.length)
    (hlen : old.length = bytes.length) :
    write off bytes (pre ++ (old ++ post)) = pre ++ (bytes ++ post) := by
  subst hoff
  have hdrop : (pre ++ (old ++ post)).drop (pre.length + bytes.length) = post := by
    rw [← hlen, ← List.append_assoc, List.drop_left' (by simp)]
  rw [write, List.take_left, hdrop]

end Records
