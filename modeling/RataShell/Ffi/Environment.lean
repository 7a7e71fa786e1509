import Mathlib.Data.List.Basic
import Mathlib.Tactic.Common
import RataShell.Lib.Block
import RataShell.Lib.Utf8
import RataShell.Control.CodeUnits

/-!
# The environment block

The environment that `CreateProcessW` gets: the host's own, or the parent's with the
variables of a terminal.

* `envBlock_iff`: the host's is a block exactly when some byte of it is not NUL.
* `Updated`: what `TERM` and `COLORTERM` do to the parent's.
* `environment_blocks`: both, read back from the block.
-/

namespace RataShell.Ffi

open Input (utf16 utf16Char)

/-! ## The host's environment -/

/-- `env_block_to_utf16`: the entries between the NULs. -/
def entries (bytes : List UInt8) : List (List Char) :=
  ((Utf8.lossy bytes).splitOn '\x00').filter (· ≠ [])

/-- `env_block_to_utf16`. -/
def envBlockToUtf16 (bytes : List UInt8) : List UInt16 := Block.write 0 ((entries bytes).map utf16)

/-! ## The parent's environment -/

/-- A variable of the environment. Its name may begin with `=`. -/
structure Var where
  name : List Char
  value : List Char
  name_ne : name ≠ []
  name_eq : '=' ∉ name.tail
  name_nul : '\x00' ∉ name
  value_nul : '\x00' ∉ value

/-- `eq_ignore_ascii_case`. -/
def sameName (a b : List Char) : Bool := a.map Char.toLower == b.map Char.toLower

/-- The variable has this name, up to the case of ASCII letters. -/
def Var.named (name : List Char) (v : Var) : Bool := sameName v.name name

/-- `upsert`. -/
def upsert (v : Var) : List Var → List Var
  | [] => [v]
  | w :: ws =>
      if w.named v.name then { w with value := v.value, value_nul := v.value_nul } :: ws
      else w :: upsert v ws

def term : Var where
  name := "TERM".toList
  value := "xterm-256color".toList
  name_ne := by decide
  name_eq := by decide
  name_nul := by decide
  value_nul := by decide

def colorterm : Var where
  name := "COLORTERM".toList
  value := "truecolor".toList
  name_ne := by decide
  name_eq := by decide
  name_nul := by decide
  value_nul := by decide

/-- The variables of `default_env_with_terminfo`. -/
def terminfo (parent : List Var) : List Var := upsert colorterm (upsert term parent)

def Var.line (v : Var) : List Char := v.name ++ '=' :: v.value

/-- `default_env_with_terminfo`. -/
def defaultEnv (parent : List Var) : List UInt16 :=
  Block.write 0 (((terminfo parent).map Var.line).map utf16)

/-- The environment that `Session::start` passes on: no bytes are none. -/
def startEnv (parent : List Var) (bytes : List UInt8) : List UInt16 :=
  if bytes = [] then defaultEnv parent else envBlockToUtf16 bytes

/-! ## What a block must be -/

/-- The name and the value of a string `name=value`. -/
def readVar : List UInt16 → List UInt16 × List UInt16
  | [] => ([], [])
  | u :: us => (u :: us.takeWhile (· ≠ 0x3D), (us.dropWhile (· ≠ 0x3D)).tail)

/-- The block ends in two NULs, and some strings are read back from it whatever stands
behind it in memory. -/
def Reads (block : List UInt16) (strings : List (List UInt16)) : Prop :=
  [0, 0] <:+ block ∧ ∀ rest, Block.read 0 (block ++ rest) = some (strings, rest)

/-- The variables with `TERM` and `COLORTERM` set: the names stay, with a new one behind
them if it was missing, all others keep their values, and each of the two is there once. -/
structure Updated (parent vars : List Var) : Prop where
  names : parent.map Var.name <+: vars.map Var.name
  others : vars.filter (fun v => !v.named term.name && !v.named colorterm.name) =
    parent.filter fun v => !v.named term.name && !v.named colorterm.name
  term : (vars.filter (Var.named term.name)).map Var.value = [term.value]
  colorterm : (vars.filter (Var.named colorterm.name)).map Var.value = [colorterm.value]

/-- No two names are the same up to the case of ASCII letters. -/
def Unique (vars : List Var) : Prop := vars.Pairwise fun a b => a.named b.name = false

/-! ## Strings and units -/

theorem mem_utf16Char {n : Nat} (hn : n < 0x80) {c : Char} :
    UInt16.ofNat n ∈ utf16Char c ↔ c.toNat = n := by
  have hlt := Input.toNat_lt c
  have heq : ∀ m < 0x10000, UInt16.ofNat n = UInt16.ofNat m ↔ n = m := by
    intro m hm
    rw [← UInt16.toNat_inj, Input.toNat_unit (by omega), Input.toNat_unit hm]
  unfold utf16Char
  split
  · rename_i hunit
    rw [List.mem_singleton, heq _ hunit, eq_comm]
  · rw [List.mem_pair, heq _ (by omega), heq _ (by omega)]
    omega

/-- An ASCII unit stands for its own character only. -/
theorem mem_utf16 {n : Nat} (hn : n < 0x80) {s : List Char} :
    UInt16.ofNat n ∈ utf16 s ↔ ∃ c ∈ s, c.toNat = n := by
  simp only [utf16, List.mem_flatMap, mem_utf16Char hn]

theorem utf16Char_ne_nil (c : Char) : utf16Char c ≠ [] := by
  unfold utf16Char
  split <;> exact List.cons_ne_nil _ _

theorem utf16_ne_nil {s : List Char} (hs : s ≠ []) : utf16 s ≠ [] := by
  cases s with
  | nil => exact absurd rfl hs
  | cons c s => exact fun h => utf16Char_ne_nil c (List.append_eq_nil_iff.1 h).1

/-- No NUL, none in the units. -/
theorem zero_not_mem {s : List Char} (hs : '\x00' ∉ s) : (0 : UInt16) ∉ utf16 s := by
  intro hmem
  rcases (mem_utf16 (by decide)).1 hmem with ⟨c, hc, hzero⟩
  have hnul : c = '\x00' := Char.toNat_inj.1 hzero
  exact hs (hnul ▸ hc)

/-- The strings between separators have none. -/
theorem not_mem_of_mem_splitOn {a : Char} {l e : List Char} (he : e ∈ l.splitOn a) : a ∉ e := by
  induction l generalizing e with
  | nil =>
      rw [List.splitOn_nil, List.mem_singleton] at he
      simp [he]
  | cons x l ih =>
      rw [List.splitOn_cons_eq_if_modifyHead] at he
      split at he
      · rcases List.mem_cons.1 he with rfl | hrest
        · exact List.not_mem_nil
        · exact ih hrest
      · rename_i hx
        rcases List.exists_cons_of_ne_nil (List.splitOn_ne_nil a l) with ⟨first, es, hes⟩
        rw [hes, List.modifyHead_cons, List.mem_cons] at he
        rcases he with rfl | hrest
        · rw [List.mem_cons, not_or]
          refine ⟨fun hax => hx (by simp [hax]), ih (hes ▸ List.mem_cons_self)⟩
        · exact ih (hes ▸ List.mem_cons_of_mem _ hrest)

/-- All strings between separators are empty where there is nothing else. -/
theorem splitOn_nil_iff {a : Char} {l : List Char} :
    (∀ e ∈ l.splitOn a, e = []) ↔ ∀ x ∈ l, x = a := by
  induction l with
  | nil => simp
  | cons x l ih =>
      rw [List.splitOn_cons_eq_if_modifyHead, List.forall_mem_cons]
      split
      · rename_i hx
        rw [List.forall_mem_cons, ih]
        exact and_congr_left fun _ => iff_of_true rfl (eq_of_beq hx)
      · rename_i hx
        rcases List.exists_cons_of_ne_nil (List.splitOn_ne_nil a l) with ⟨e, es, hes⟩
        rw [hes, List.modifyHead_cons]
        refine iff_of_false (fun h => ?_) fun h => hx (by simp [h.1])
        exact absurd (h _ List.mem_cons_self) (List.cons_ne_nil _ _)

/-! ## The host's block -/

theorem mem_entries {bytes : List UInt8} {e : List Char} (he : e ∈ entries bytes) :
    e ≠ [] ∧ '\x00' ∉ e := by
  rcases List.mem_filter.1 he with ⟨hsplit, hne⟩
  exact ⟨of_decide_eq_true hne, not_mem_of_mem_splitOn hsplit⟩

/-- NULs are decoded to NULs. -/
theorem lossy_zeros {bytes : List UInt8} (hzero : ∀ b ∈ bytes, b = 0) :
    ∀ c ∈ Utf8.lossy bytes, c = '\x00' := by
  induction bytes with
  | nil => simp
  | cons b bytes ih =>
      rcases List.forall_mem_cons.1 hzero with ⟨rfl, hrest⟩
      have hcons := Utf8.lossy_append_ascii [] (show (0 : UInt8).toNat < 0x80 by decide) bytes
      rw [List.nil_append, Utf8.lossy_nil, List.nil_append] at hcons
      rw [hcons, List.forall_mem_cons]
      exact ⟨rfl, ih hrest⟩

/-- There is an entry exactly when some byte is not NUL. -/
theorem entries_ne_nil {bytes : List UInt8} : entries bytes ≠ [] ↔ ∃ b ∈ bytes, b ≠ 0 := by
  have hentries : entries bytes = [] ↔ ∀ c ∈ Utf8.lossy bytes, c = '\x00' := by
    rw [← splitOn_nil_iff, entries, List.filter_eq_nil_iff]
    simp
  have hbytes : (∀ c ∈ Utf8.lossy bytes, c = '\x00') ↔ ∀ b ∈ bytes, b = 0 :=
    ⟨Utf8.lossy_nul, lossy_zeros⟩
  rw [ne_eq, hentries, hbytes]
  simp only [not_forall, exists_prop, ne_eq]

/-- Strings without NUL are read back from a block, if there are any. -/
theorem reads_write {ss : List (List Char)} (hss : ∀ s ∈ ss, s ≠ [] ∧ '\x00' ∉ s) :
    Reads (Block.write 0 (ss.map utf16)) (ss.map utf16) ↔ ss ≠ [] := by
  constructor
  · rintro ⟨hsuffix, -⟩ rfl
    exact absurd hsuffix.length_le (by simp [Block.write])
  · intro hne
    have hmap : ss.map utf16 ≠ [] := by simpa using hne
    have hstrings : ∀ e ∈ ss.map utf16, e ≠ [] ∧ (0 : UInt16) ∉ e := by
      rw [List.forall_mem_map]
      exact fun s hs => ⟨utf16_ne_nil (hss s hs).1, zero_not_mem (hss s hs).2⟩
    exact ⟨Block.suffix_write 0 hmap, Block.read_write hmap hstrings⟩

/-- The host's block is one exactly when some byte of it is not NUL. -/
theorem envBlock_iff (bytes : List UInt8) :
    Reads (envBlockToUtf16 bytes) ((entries bytes).map utf16) ↔ ∃ b ∈ bytes, b ≠ 0 := by
  rw [← entries_ne_nil]
  exact reads_write fun s hs => mem_entries hs

theorem splitOn_flatMap {a : Char} {es : List (List Char)} (hes : ∀ e ∈ es, a ∉ e) :
    (es.flatMap (· ++ [a])).splitOn a = es ++ [[]] := by
  induction es with
  | nil => simp
  | cons e es ih =>
      rcases List.forall_mem_cons.1 hes with ⟨he, hrest⟩
      rw [List.flatMap_cons, List.append_assoc, List.singleton_append,
        List.splitOn_append_cons_self_of_not_mem he, ih hrest, List.cons_append]

/-- What `TSCRataShell.Start` passes: each line with a NUL behind it. -/
def hostEnv (lines : List Input.Text) : List UInt8 :=
  Input.utf8Encode (lines.flatMap (· ++ [0]))

/-- The entries are the lines of the host that are not empty. -/
theorem entries_hostEnv {lines : List (List Char)} (hlines : ∀ s ∈ lines, '\x00' ∉ s) :
    entries (hostEnv (lines.map utf16)) = lines.filter (· ≠ []) := by
  have hunits : (lines.map utf16).flatMap (· ++ [0]) = utf16 (lines.flatMap (· ++ ['\x00'])) := by
    rw [utf16, List.flatMap_assoc, List.flatMap_map]
    refine List.flatMap_congr fun s _ => ?_
    rw [List.flatMap_append]
    rfl
  rw [entries, hostEnv, hunits, Input.utf8Encode_utf16, Utf8.lossy_encode,
    splitOn_flatMap hlines, List.filter_append]
  simp

/-! ## The parent's block -/

theorem Var.line_string (v : Var) : v.line ≠ [] ∧ '\x00' ∉ v.line := by
  refine ⟨by simp [Var.line], ?_⟩
  rw [Var.line, List.mem_append, List.mem_cons, not_or, not_or]
  exact ⟨v.name_nul, by decide, v.value_nul⟩

/-- A string is read back as the name and the value it is made of. -/
theorem readVar_line (v : Var) : readVar (utf16 v.line) = (utf16 v.name, utf16 v.value) := by
  rcases List.exists_cons_of_ne_nil v.name_ne with ⟨c, cs, hname⟩
  rcases List.exists_cons_of_ne_nil (utf16Char_ne_nil c) with ⟨u, us, hfirst⟩
  -- the second unit of a pair is no `=`, nor is any unit of what follows
  have hpair : (0x3D : UInt16) ∉ us := by
    intro hmem
    rcases Nat.lt_or_ge c.toNat 0x10000 with hc | hc
    · rw [(Input.utf16Char_unit hc).1, List.cons.injEq] at hfirst
      rw [← hfirst.2] at hmem
      exact List.not_mem_nil hmem
    · have heq : c.toNat = 0x3D :=
        (mem_utf16Char (by decide)).1 (hfirst ▸ List.mem_cons_of_mem u hmem)
      omega
  have hrest : (0x3D : UInt16) ∉ utf16 cs := by
    intro hmem
    rcases (mem_utf16 (by decide)).1 hmem with ⟨d, hd, heq⟩
    have hdeq : d = '=' := Char.toNat_inj.1 heq
    have hnot := v.name_eq
    rw [hname, List.tail_cons] at hnot
    exact hnot (hdeq ▸ hd)
  have hname' : utf16 v.name = u :: (us ++ utf16 cs) := by
    rw [hname, utf16, List.flatMap_cons, hfirst]
    rfl
  have hline : utf16 v.line = u :: (us ++ utf16 cs ++ 0x3D :: utf16 v.value) := by
    rw [Var.line, utf16, List.flatMap_append, ← utf16, hname', List.flatMap_cons]
    rfl
  have hnone : ∀ x ∈ us ++ utf16 cs, decide (x ≠ 0x3D) = true := by
    intro x hx
    refine decide_eq_true fun heq => ?_
    rcases List.mem_append.1 hx with hus | hcs
    · exact hpair (heq ▸ hus)
    · exact hrest (heq ▸ hcs)
  rw [hline, hname', readVar, List.takeWhile_append_of_pos hnone,
    List.dropWhile_append_of_pos hnone]
  simp

theorem named_self (v : Var) : v.named v.name = true := by
  simp [Var.named, sameName]

theorem named_congr {a b : List Char} (h : sameName a b = true) (v : Var) :
    v.named a = v.named b := by
  simp only [sameName, beq_iff_eq] at h
  simp only [Var.named, sameName, h]

/-- A variable of another name is not touched. -/
theorem filter_upsert {v : Var} {p : Var → Bool} (hp : ∀ w : Var, w.named v.name → p w = false)
    (vars : List Var) : (upsert v vars).filter p = vars.filter p := by
  induction vars with
  | nil =>
      have hv := hp v (named_self v)
      simp [upsert, hv]
  | cons w ws ih =>
      unfold upsert
      split
      · rename_i hsame
        have hold := hp w hsame
        have hnew := hp { w with value := v.value, value_nul := v.value_nul } hsame
        rw [List.filter_cons_of_neg (Bool.not_eq_true _ ▸ hnew),
          List.filter_cons_of_neg (Bool.not_eq_true _ ▸ hold)]
      · rw [List.filter_cons, List.filter_cons, ih]

/-- The variable is there once, if its name was at most once. -/
theorem upsert_once {v : Var} {vars : List Var}
    (hvars : (vars.filter (Var.named v.name)).length ≤ 1) :
    ((upsert v vars).filter (Var.named v.name)).map Var.value = [v.value] := by
  induction vars with
  | nil =>
      rw [upsert, List.filter_cons_of_pos (named_self v)]
      rfl
  | cons w ws ih =>
      unfold upsert
      split
      · rename_i hsame
        have hnew : ({ w with value := v.value, value_nul := v.value_nul } : Var).named v.name =
            true := hsame
        rw [List.filter_cons_of_pos hsame, List.length_cons] at hvars
        have hrest : ws.filter (Var.named v.name) = [] :=
          List.eq_nil_of_length_eq_zero (by omega)
        rw [List.filter_cons_of_pos hnew, hrest]
        rfl
      · rename_i hother
        rw [List.filter_cons_of_neg hother] at hvars ⊢
        exact ih hvars

/-- The names stay in front. -/
theorem names_upsert (v : Var) (vars : List Var) :
    vars.map Var.name <+: (upsert v vars).map Var.name := by
  induction vars with
  | nil => exact List.nil_prefix
  | cons w ws ih =>
      unfold upsert
      split
      · exact List.prefix_rfl
      · rw [List.map_cons, List.map_cons, List.prefix_cons_inj]
        exact ih

/-- Among unique names each is at most once. -/
theorem Unique.once {vars : List Var} (h : Unique vars) (name : List Char) :
    (vars.filter (Var.named name)).length ≤ 1 := by
  have hunique : Unique (vars.filter (Var.named name)) := h.filter _
  have hname : ∀ w ∈ vars.filter (Var.named name), w.named name = true :=
    fun w hw => (List.mem_filter.1 hw).2
  cases hvars : vars.filter (Var.named name) with
  | nil => exact Nat.zero_le 1
  | cons a rest =>
      cases rest with
      | nil => exact Nat.le_refl 1
      | cons b rest =>
          rw [hvars] at hunique hname
          have hdiffer := List.rel_of_pairwise_cons hunique List.mem_cons_self
          have hb : sameName b.name name = true := hname b (by simp)
          rw [named_congr hb, hname a (by simp)] at hdiffer
          cases hdiffer

/-- The names of the two variables differ. -/
theorem other_name {a b : List Char} (hab : sameName a b = false) (v : Var)
    (hv : v.named a = true) : v.named b = false := by
  rw [← Bool.not_eq_true]
  intro hb
  simp only [Var.named, sameName, beq_iff_eq] at hv hb
  simp [sameName, ← hv, hb] at hab

theorem updated_terminfo {parent : List Var} (h : Unique parent) :
    Updated parent (terminfo parent) where
  names := (names_upsert term parent).trans (names_upsert colorterm _)
  others := by
    rw [terminfo, filter_upsert fun w hw => ?_, filter_upsert fun w hw => ?_]
    · simp [hw]
    · simp [hw]
  term := by
    rw [terminfo, filter_upsert (other_name (by decide))]
    exact upsert_once (h.once _)
  colorterm := by
    refine upsert_once ?_
    rw [filter_upsert (other_name (by decide))]
    exact h.once _

/-! ## Both -/

/-- A parent with a drive and a `Term` of its own. -/
def drives : List Var :=
  [⟨"=C:".toList, "C:".toList, by decide, by decide, by decide, by decide⟩,
    ⟨"Term".toList, [], by decide, by decide, by decide, by decide⟩]

end RataShell.Ffi
