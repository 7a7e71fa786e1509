import Mathlib.Data.List.Basic
import Mathlib.Tactic.Common
import RataShell.Lib.Utf8

/-!
# Texts for the host

The getters copy a text into a buffer of the host, as much as fits, with a NUL behind it.

* `read_copyText`: what a getter leaves in memory.
* `getter_proper_iff`: it is a part of the text in UTF-8 exactly when there is a text, and the
  end of the buffer is not inside a character of it.
* `twoCalls_unchanged`: the host asks for the length first, and gets all of a text that
  has not changed.
-/

namespace RataShell.Ffi

/-! ## Memory -/

/-- The bytes at all addresses; 0 is the null pointer. -/
abbrev Memory := Nat → UInt8

namespace Memory

/-- `copy_nonoverlapping` of some bytes to an address. -/
def write (addr : Nat) (bytes : List UInt8) (m : Memory) : Memory := fun a =>
  if addr ≤ a then bytes[a - addr]?.getD (m a) else m a

/-- The `n` bytes from an address on. -/
def read (addr n : Nat) (m : Memory) : List UInt8 := (List.range n).map fun i => m (addr + i)

theorem write_outside {addr : Nat} {bytes : List UInt8} {m : Memory} {a : Nat}
    (ha : a < addr ∨ addr + bytes.length ≤ a) : m.write addr bytes a = m a := by
  unfold write
  split
  · rw [List.getElem?_eq_none (by omega), Option.getD_none]
  · rfl

theorem read_write (addr : Nat) (bytes : List UInt8) (m : Memory) :
    (m.write addr bytes).read addr bytes.length = bytes := by
  refine List.ext_getElem (by simp [read]) fun i hi hi' => ?_
  simp [read, write, hi']

theorem read_congr {addr n : Nat} {m m' : Memory} (h : ∀ i < n, m (addr + i) = m' (addr + i)) :
    m.read addr n = m'.read addr n :=
  List.map_congr_left fun i hi => h i (List.mem_range.1 hi)

end Memory

/-! ## The getters -/

/-- The texts of a session. -/
structure Texts where
  title : List Char
  cwd : List Char
  hyperlinkUri : UInt32 → List Char
  selection : Option (List Char)

/-- What the getters read: the session of a handle that is valid, and the last error of
the thread and of all. -/
structure Host where
  session : Option Texts
  lastErr : List Char
  globalErr : List Char

/-- The end of each getter. -/
def copyText (text : List Char) (buf cap : Nat) (m : Memory) : Nat × Memory :=
  let bytes := Utf8.encode text
  if buf = 0 ∨ cap = 0 then (bytes.length, m)
  else
    let n := min bytes.length (cap - 1)
    (n, (m.write buf (bytes.take n)).write (buf + n) [0])

/-- A getter of a text that may not be there. -/
def getText (text : Option (List Char)) (buf cap : Nat) (m : Memory) : Nat × Memory :=
  match text with
  | some s => copyText s buf cap m
  | none => (0, m)

/-- `last_error_copy`. -/
def lastErrorCopy (h : Host) : List Char := if h.lastErr = [] then h.globalErr else h.lastErr

/-- `rata_session_get_title`. -/
def getTitle (h : Host) : Nat → Nat → Memory → Nat × Memory := getText (h.session.map (·.title))

/-- `rata_session_get_cwd`. -/
def getCwd (h : Host) : Nat → Nat → Memory → Nat × Memory := getText (h.session.map (·.cwd))

/-- `rata_session_get_hyperlink`. -/
def getHyperlink (id : UInt32) (h : Host) : Nat → Nat → Memory → Nat × Memory :=
  getText (h.session.map (·.hyperlinkUri id))

/-- `rata_session_selection_get_text`; nothing is written where nothing is selected. -/
def selectionGetText (h : Host) : Nat → Nat → Memory → Nat × Memory :=
  getText (h.session.bind (·.selection))

/-- `rata_last_error_message`. -/
def lastErrorMessage (h : Host) : Nat → Nat → Memory → Nat × Memory :=
  copyText (lastErrorCopy h)

inductive Getter where
  | title
  | cwd
  | hyperlink (id : UInt32)
  | selection
  | lastError
deriving DecidableEq, Repr

namespace Getter

def call (h : Host) : Getter → Nat → Nat → Memory → Nat × Memory
  | title => getTitle h
  | cwd => getCwd h
  | hyperlink id => getHyperlink id h
  | selection => selectionGetText h
  | lastError => lastErrorMessage h

/-- The text that a getter is for. -/
def text (h : Host) : Getter → Option (List Char)
  | title => h.session.map (·.title)
  | cwd => h.session.map (·.cwd)
  | hyperlink id => h.session.map (·.hyperlinkUri id)
  | selection => h.session.bind (·.selection)
  | lastError => some (lastErrorCopy h)

/-- The two calls of the host, as `TSCRataShell.CurrentCwd` makes them: the length, and
the text into a buffer of that length and a NUL. Others may change the text between them. -/
def twoCalls (g : Getter) (before after : Host) (buf : Nat) (m : Memory) : Nat × Memory :=
  g.call after buf ((g.call before 0 0 m).1 + 1) m

end Getter

/-! ## What they leave -/

/-- What the host may rely on: fewer bytes than its buffer has, which are the UTF-8 of a
beginning of the text and all of it if that fits, a NUL behind them, and no other byte of
the memory touched. -/
def Proper (text : List Char) (buf cap : Nat) (m : Memory) (result : Nat × Memory) : Prop :=
  result.1 < cap ∧ result.2 (buf + result.1) = 0 ∧
    (∀ a, a < buf ∨ buf + result.1 < a → result.2 a = m a) ∧
    (∃ cs, cs <+: text ∧ result.2.read buf result.1 = Utf8.encode cs) ∧
    ((Utf8.encode text).length ≤ cap - 1 →
      result.2.read buf result.1 = Utf8.encode text)

variable {buf cap : Nat}

/-- The bytes that fit are in the buffer, with a NUL behind them. -/
theorem read_copyText (text : List Char) (hbuf : buf ≠ 0) (hcap : 0 < cap) (m : Memory) :
    (copyText text buf cap m).1 = min (Utf8.encode text).length (cap - 1) ∧
      (copyText text buf cap m).2.read buf (copyText text buf cap m).1 =
        (Utf8.encode text).take (cap - 1) ∧
      (copyText text buf cap m).2 (buf + (copyText text buf cap m).1) = 0 ∧
      ∀ a, a < buf ∨ buf + (copyText text buf cap m).1 < a →
        (copyText text buf cap m).2 a = m a := by
  have hargs : ¬ (buf = 0 ∨ cap = 0) := by omega
  simp only [copyText, if_neg hargs, true_and]
  generalize Utf8.encode text = bytes
  have hlength : (bytes.take (min bytes.length (cap - 1))).length =
      min bytes.length (cap - 1) := by
    rw [List.length_take]
    omega
  have htake : bytes.take (min bytes.length (cap - 1)) = bytes.take (cap - 1) := by
    rw [Nat.min_comm, ← List.take_eq_take_min]
  refine ⟨?_, ?_, ?_⟩
  · rw [← htake]
    refine (Memory.read_congr fun i hi => Memory.write_outside (.inl ?_)).trans ?_
    · omega
    · have hwritten := Memory.read_write buf (bytes.take (min bytes.length (cap - 1))) m
      rw [hlength] at hwritten
      exact hwritten
  · simp [Memory.write]
  · intro a ha
    rw [Memory.write_outside (by rw [List.length_singleton]; omega),
      Memory.write_outside (by rw [hlength]; omega)]

/-- One copy is proper exactly when the text fits or is cut between two characters. -/
theorem proper_copyText_iff (text : List Char) (hbuf : buf ≠ 0) (hcap : 0 < cap) (m : Memory) :
    Proper text buf cap m (copyText text buf cap m) ↔
      (Utf8.encode text).length ≤ cap - 1 ∨
        Utf8.isCharBoundary (Utf8.encode text) (cap - 1) = true := by
  rcases read_copyText text hbuf hcap m with ⟨hcount, hread, hnul, houtside⟩
  have hlt : (copyText text buf cap m).1 < cap := by omega
  rw [Proper, hread, Utf8.isCharBoundary_iff]
  constructor
  · rintro ⟨-, -, -, ⟨cs, hcs, hcut⟩, -⟩
    rcases Nat.lt_or_ge (cap - 1) (Utf8.encode text).length with hlong | hfits
    · refine .inr ⟨cs, hcs, ?_⟩
      rw [← hcut, List.length_take]
      omega
    · exact .inl hfits
  · rintro (hfits | ⟨cs, hcs, hlength⟩)
    · have hwhole := List.take_of_length_le hfits
      exact ⟨hlt, hnul, houtside, ⟨text, List.prefix_rfl, hwhole⟩, fun _ => hwhole⟩
    · rcases hcs with ⟨rest, rfl⟩
      have hcut : (Utf8.encode (cs ++ rest)).take (cap - 1) = Utf8.encode cs := by
        rw [Utf8.encode_append, ← hlength, List.take_left]
      refine ⟨hlt, hnul, houtside, ⟨cs, List.prefix_append cs rest, hcut⟩, fun hfits => ?_⟩
      exact List.take_of_length_le hfits

/-- A getter copies its text, if there is one. -/
theorem call_eq (g : Getter) (h : Host) : g.call h = getText (g.text h) := by
  cases g <;> rfl

/-- Each getter, whatever the text has become by the time of the call, is proper exactly
when there is a text, which fits or is cut between two characters. -/
theorem getter_proper_iff (g : Getter) (h : Host) (hcap : 0 < cap) :
    (∀ buf ≠ 0, ∀ m, Proper ((g.text h).getD []) buf cap m (g.call h buf cap m)) ↔
      ∃ s, g.text h = some s ∧ ((Utf8.encode s).length ≤ cap - 1 ∨
        Utf8.isCharBoundary (Utf8.encode s) (cap - 1) = true) := by
  rw [call_eq]
  cases htext : g.text h with
  | none =>
      refine iff_of_false (fun hproper => ?_) (by simp)
      -- nothing is written, not even the NUL
      have hnul : (1 : UInt8) = 0 := (hproper 1 Nat.one_ne_zero fun _ => 1).2.1
      exact absurd hnul (by decide)
  | some s =>
      simp only [Option.getD_some, Option.some.injEq, exists_eq_left']
      constructor
      · intro hproper
        exact (proper_copyText_iff s Nat.one_ne_zero hcap fun _ => 0).1
          (hproper 1 Nat.one_ne_zero _)
      · intro hcut buf hbuf m
        exact (proper_copyText_iff s hbuf hcap m).2 hcut

/-- A session with a title, and no more. -/
def titled (title : List Char) : Host where
  session := some ⟨title, [], fun _ => [], none⟩
  lastErr := []
  globalErr := []

theorem long_title :
    (∀ buf ≠ 0, ∀ m, Proper ((Getter.title.text (titled ['a', 'é'])).getD []) buf 2 m
        (Getter.title.call (titled ['a', 'é']) buf 2 m)) ↔
      ∃ s, Getter.title.text (titled ['a', 'é']) = some s ∧ ((Utf8.encode s).length ≤ 2 - 1 ∨
        Utf8.isCharBoundary (Utf8.encode s) (2 - 1) = true) :=
  getter_proper_iff .title (titled ['a', 'é']) (by decide)

/-- The title becomes longer after the host has asked for its length, and the one byte
that it gets is no character. -/
theorem cut_title :
    (Getter.title.twoCalls (titled ['a']) (titled ['é']) 1 fun _ => 0).2.read 1 1 = [0xC3] ∧
      ¬ Proper ['é'] 1 2 (fun _ => 0)
        (Getter.title.twoCalls (titled ['a']) (titled ['é']) 1 fun _ => 0) := by
  refine ⟨by decide +kernel, fun hproper => ?_⟩
  have hcut := (proper_copyText_iff ['é'] Nat.one_ne_zero Nat.two_pos _).1 hproper
  exact absurd hcut (by decide +kernel)

/-- The host gets all of a text that has not changed. -/
theorem twoCalls_unchanged {g : Getter} {before after : Host} {s : List Char}
    (hbefore : g.text before = some s) (hafter : g.text after = some s) {buf : Nat}
    (hbuf : buf ≠ 0) (m : Memory) :
    (g.twoCalls before after buf m).1 = (Utf8.encode s).length ∧
      (g.twoCalls before after buf m).2.read buf (g.twoCalls before after buf m).1 =
        Utf8.encode s := by
  have hask : (g.call before 0 0 m).1 = (Utf8.encode s).length := by
    rw [call_eq, hbefore]
    exact congrArg Prod.fst (if_pos (.inl rfl))
  have hcopy : g.twoCalls before after buf m =
      copyText s buf ((Utf8.encode s).length + 1) m := by
    rw [Getter.twoCalls, hask, call_eq, hafter]
    rfl
  rcases read_copyText s hbuf (Nat.succ_pos (Utf8.encode s).length) m with
    ⟨hcount, hread, -, -⟩
  rw [hcopy]
  rw [Nat.succ_eq_add_one, Nat.add_sub_cancel] at hcount hread
  rw [Nat.min_self] at hcount
  exact ⟨hcount, hread.trans (List.take_of_length_le (Nat.le_refl _))⟩

end RataShell.Ffi
