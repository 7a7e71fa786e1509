import Mathlib.Data.List.TakeWhile
import RataShell.Ffi.Environment
import RataShell.Ffi.LastError

/-!
# The command line

What `CreateProcessW` reads of the strings that a control has: they are encoded in UTF-8 for
`rata_session_create`, which makes one command line of the path and the arguments, and that
is passed on in UTF-16.

* `commandLine_read_iff`: the paths and arguments that are read back from it.
* `start_read_iff`: with the directory, all that `Start` passes on.
-/

namespace RataShell.Ffi.CommandLine

open Input (Text utf16 utf8Encode utf8Encode_utf16)
open LastError (RataError)

/-! ## Creating a session -/

/-- `RataSpawnOptions`; a pointer that is null goes with no bytes. -/
structure RataSpawnOptions where
  shellPath : List UInt8
  shellArgs : List UInt8
  cwd : List UInt8
  env : List UInt8
  cols : UInt16
  rows : UInt16
  scrollback : UInt32

/-- `SpawnOptions`. -/
structure SpawnOptions where
  cmdline : List Char
  cwd : Option (List Char)
  envBlock : Option (List UInt16)
  cols : UInt16
  rows : UInt16
  scrollback : Nat
deriving DecidableEq, Repr

/-- `read_utf8`. -/
def readUtf8 (bytes : List UInt8) : Option (List Char) :=
  if bytes = [] then none else some (Utf8.lossy bytes)

/-- `quote_path`. -/
def quotePath (p : List Char) : List Char :=
  if ' ' ∈ p ∧ p.head? ≠ some '"' then '"' :: (p ++ ['"']) else p

/-- The shell where no path is given. -/
def defaultShell : List Char := "C:\\Windows\\System32\\cmd.exe".toList

/-- The arguments behind the path, with a blank before them. -/
def argumentsOf (shellArgs : List Char) : List Char :=
  if shellArgs = [] then [] else ' ' :: shellArgs

/-- `rata_session_create`, up to `Session::new`. -/
def sessionCreate (opts : Option RataSpawnOptions) (outHandle : Bool) :
    Except RataError SpawnOptions :=
  match opts, outHandle with
  | some o, true =>
      let shellPath := ((readUtf8 o.shellPath).filter (· ≠ [])).getD defaultShell
      let shellArgs := (readUtf8 o.shellArgs).getD []
      .ok {
        cmdline := quotePath shellPath ++ argumentsOf shellArgs
        cwd := (readUtf8 o.cwd).filter (· ≠ [])
        envBlock := if o.env = [] then none else some (envBlockToUtf16 o.env)
        cols := max o.cols 1
        rows := max o.rows 1
        scrollback := if o.scrollback = 0 then 10000 else o.scrollback.toNat }
  | _, _ => .error (.arg "null pointer".toList)

/-- The properties of the control that `Start` passes on. -/
structure Properties where
  shellPath : Text
  shellArgs : Text
  workingDir : Text
  environment : List Text
  scrollbackLines : UInt32

/-- The options of `Start`, for a size in cells. -/
def startOptions (p : Properties) (cols rows : UInt16) : RataSpawnOptions where
  shellPath := utf8Encode p.shellPath
  shellArgs := utf8Encode p.shellArgs
  cwd := utf8Encode p.workingDir
  env := hostEnv p.environment
  cols := cols
  rows := rows
  scrollback := p.scrollbackLines

/-! ## Creating the process -/

/-- A string for Windows, as `PtyHost::spawn` writes it. -/
def wide (s : List Char) : Text := utf16 s ++ [0]

/-- What Windows reads of it. -/
def readWide (t : Text) : Text := t.takeWhile (· ≠ 0)

def isBlank (u : UInt16) : Bool := u = 0x20 || u = 0x09

/-- The program of a command line, up to the next quote if it begins with one and else up
to a blank, and what is behind it. -/
def program : Text → Text × Text
  | [] => ([], [])
  | u :: us =>
      if u = 0x22 then (us.takeWhile (· ≠ 0x22), (us.dropWhile (· ≠ 0x22)).tail)
      else ((u :: us).takeWhile (!isBlank ·), (u :: us).dropWhile (!isBlank ·))

/-- What `CreateProcessW` reads: the program, the arguments with the blank before them, and
the directory. -/
structure Process where
  program : Text
  arguments : Text
  directory : Option Text
deriving DecidableEq, Repr

/-- The strings of `CreateProcessW` in `PtyHost::spawn`. -/
def createProcess (o : SpawnOptions) : Process where
  program := (program (readWide (wide o.cmdline))).1
  arguments := (program (readWide (wide o.cmdline))).2
  directory := (o.cwd.filter (· ≠ [])).map fun cwd => readWide (wide cwd)

/-! ## Strings -/

theorem mem_unit {c : Char} (hc : c.toNat < 0x80) {s : List Char} :
    UInt16.ofNat c.toNat ∈ utf16 s ↔ c ∈ s := by
  rw [mem_utf16 hc]
  constructor
  · rintro ⟨d, hd, heq⟩
    exact Char.toNat_inj.1 heq ▸ hd
  · exact fun h => ⟨c, h, rfl⟩

@[simp] theorem utf16_append (s t : List Char) : utf16 (s ++ t) = utf16 s ++ utf16 t :=
  List.flatMap_append

theorem utf16_cons (c : Char) (s : List Char) : utf16 (c :: s) = Input.utf16Char c ++ utf16 s :=
  rfl

theorem nul_mem {s : List Char} : (0 : UInt16) ∈ utf16 s ↔ '\x00' ∈ s :=
  mem_unit (c := '\x00') (by decide)

theorem quote_mem {s : List Char} : (0x22 : UInt16) ∈ utf16 s ↔ '"' ∈ s :=
  mem_unit (c := '"') (by decide)

theorem blank_mem {s : List Char} :
    (∃ u ∈ utf16 s, isBlank u = true) ↔ ' ' ∈ s ∨ '\t' ∈ s := by
  have hspace : (0x20 : UInt16) ∈ utf16 s ↔ ' ' ∈ s := mem_unit (c := ' ') (by decide)
  have htab : (0x09 : UInt16) ∈ utf16 s ↔ '\t' ∈ s := mem_unit (c := '\t') (by decide)
  rw [← hspace, ← htab]
  simp only [isBlank, Bool.or_eq_true, decide_eq_true_eq]
  constructor
  · rintro ⟨u, hu, rfl | rfl⟩
    · exact .inl hu
    · exact .inr hu
  · rintro (hu | hu)
    · exact ⟨_, hu, .inl rfl⟩
    · exact ⟨_, hu, .inr rfl⟩

theorem not_nul_mem_readWide (t : Text) : (0 : UInt16) ∉ readWide t := by
  intro hmem
  simpa using List.mem_takeWhile_imp hmem

theorem readWide_wide {s : List Char} (hs : '\x00' ∉ s) : readWide (wide s) = utf16 s := by
  have hunits : ∀ u ∈ utf16 s, decide (u ≠ 0) = true := by
    intro u hu
    refine decide_eq_true ?_
    rintro rfl
    exact hs (nul_mem.1 hu)
  rw [readWide, wide, List.takeWhile_append_of_pos hunits,
    List.takeWhile_cons_of_neg (by decide), List.append_nil]

/-- What is read of a string is the string exactly when there is no NUL in it. -/
theorem readWide_wide_iff (s : List Char) : readWide (wide s) = utf16 s ↔ '\x00' ∉ s := by
  refine ⟨fun h hnul => ?_, readWide_wide⟩
  exact not_nul_mem_readWide (wide s) (h ▸ nul_mem.2 hnul)

/-! ## Programs -/

/-- The program and the arguments are parts of the line. -/
theorem mem_of_mem_program {t : Text} {u : UInt16}
    (hu : u ∈ (program t).1 ∨ u ∈ (program t).2) : u ∈ t := by
  cases t with
  | nil => simp [program] at hu
  | cons v t =>
      by_cases hquote : v = 0x22
      · simp only [program, if_pos hquote] at hu
        rcases hu with hu | hu
        · exact List.mem_cons_of_mem _ (List.takeWhile_subset _ hu)
        · exact List.mem_cons_of_mem _ (List.dropWhile_subset _ (List.mem_of_mem_tail hu))
      · simp only [program, if_neg hquote] at hu
        rcases hu with hu | hu
        · exact List.takeWhile_subset _ hu
        · exact List.dropWhile_subset _ hu

/-- Between quotes. -/
theorem program_quoted {p : Text} (hp : (0x22 : UInt16) ∉ p) (rest : Text) :
    program (0x22 :: (p ++ 0x22 :: rest)) = (p, rest) := by
  have hunits : ∀ u ∈ p, decide (u ≠ 0x22) = true := by
    intro u hu
    refine decide_eq_true ?_
    rintro rfl
    exact hp hu
  rw [program, if_pos rfl, List.takeWhile_append_of_pos hunits,
    List.takeWhile_cons_of_neg (by decide), List.append_nil,
    List.dropWhile_append_of_pos hunits, List.dropWhile_cons_of_neg (by decide), List.tail_cons]

/-- No quote is in a program that begins with one. -/
theorem quote_not_mem_program (t : Text) : (0x22 : UInt16) ∉ (program (0x22 :: t)).1 := by
  intro hmem
  rw [program, if_pos rfl] at hmem
  simpa using List.mem_takeWhile_imp hmem

/-- Without quotes, in front of a blank or the end. -/
theorem program_plain {p rest : Text} (hne : p ≠ []) (hquote : p.head? ≠ some 0x22)
    (hblank : ∀ u ∈ p, isBlank u = false) (hrest : ∀ u ∈ rest.head?, isBlank u = true) :
    program (p ++ rest) = (p, rest) := by
  cases p with
  | nil => exact absurd rfl hne
  | cons u p =>
      have hunits : ∀ v ∈ u :: p, (!isBlank v) = true := fun v hv => by rw [hblank v hv]; rfl
      have hu : u ≠ 0x22 := by simpa using hquote
      have htake : rest.takeWhile (!isBlank ·) = [] := by
        cases rest with
        | nil => rfl
        | cons v rest => exact List.takeWhile_cons_of_neg (by simp [hrest v rfl])
      have hdrop : rest.dropWhile (!isBlank ·) = rest := by
        cases rest with
        | nil => rfl
        | cons v rest => exact List.dropWhile_cons_of_neg (by simp [hrest v rfl])
      rw [List.cons_append, program, if_neg hu, ← List.cons_append,
        List.takeWhile_append_of_pos hunits, htake, List.append_nil,
        List.dropWhile_append_of_pos hunits, hdrop]

/-- No blank is in a program that does not begin with a quote. -/
theorem blank_not_mem_program {t : Text} (hquote : t.head? ≠ some 0x22) {u : UInt16}
    (hu : u ∈ (program t).1) : isBlank u = false := by
  cases t with
  | nil => simp [program] at hu
  | cons v t =>
      rw [program, if_neg (by simpa using hquote)] at hu
      simpa using List.mem_takeWhile_imp hu

/-! ## Command lines -/

theorem head?_utf16 {s : List Char} (hs : s.head? ≠ some '"') :
    (utf16 s).head? ≠ some 0x22 := by
  cases s with
  | nil => simp [utf16]
  | cons c s =>
      intro hhead
      rw [utf16_cons, List.head?_append_of_ne_nil _ (utf16Char_ne_nil c)] at hhead
      have hc : c.toNat = 0x22 := (mem_utf16Char (by decide)).1 (List.mem_of_head? hhead)
      exact hs (congrArg some (Char.toNat_inj.1 hc))

theorem head?_argumentsOf (args : List Char) :
    ∀ u ∈ (utf16 (argumentsOf args)).head?, isBlank u = true := by
  unfold argumentsOf
  split
  · rintro u ⟨⟩
  · rintro u ⟨⟩
    decide

theorem nul_mem_argumentsOf {args : List Char} : '\x00' ∈ argumentsOf args ↔ '\x00' ∈ args := by
  unfold argumentsOf
  split
  · next h => rw [h]
  · simp

/-- The path is not quoted itself, and has no quote where it has a space and no tab where
it has none. -/
def Plain (path : List Char) : Prop :=
  path.head? ≠ some '"' ∧ if ' ' ∈ path then '"' ∉ path else '\t' ∉ path

instance (path : List Char) : Decidable (Plain path) := inferInstanceAs (Decidable (_ ∧ _))

theorem quotePath_quoted {path : List Char} (h : path.head? = some '"') :
    quotePath path = path := if_neg fun h' => h'.2 h

theorem program_quotePath {path : List Char} (hne : path ≠ []) (hpath : Plain path)
    (args : List Char) :
    program (utf16 (quotePath path ++ argumentsOf args)) =
      (utf16 path, utf16 (argumentsOf args)) := by
  rcases hpath with ⟨hhead, hpath⟩
  split at hpath
  · next hspace =>
      have hquote : (0x22 : UInt16) ∉ utf16 path := fun h => hpath (quote_mem.1 h)
      have hline : utf16 (quotePath path ++ argumentsOf args) =
          0x22 :: (utf16 path ++ 0x22 :: utf16 (argumentsOf args)) := by
        rw [quotePath, if_pos ⟨hspace, hhead⟩, List.cons_append, List.append_assoc, utf16_cons,
          utf16_append, utf16_append]
        rfl
      rw [hline, program_quoted hquote]
  · next hspace =>
      have hblank : ∀ u ∈ utf16 path, isBlank u = false := by
        intro u hu
        by_contra hb
        rcases blank_mem.1 ⟨u, hu, by simpa using hb⟩ with h | h
        · exact hspace h
        · exact hpath h
      rw [quotePath, if_neg fun h => hspace h.1, utf16_append]
      exact program_plain (utf16_ne_nil hne) (head?_utf16 hhead) hblank (head?_argumentsOf args)

theorem plain_of_program {path args : List Char} {rest : Text} (hne : path ≠ [])
    (h : program (utf16 (quotePath path ++ argumentsOf args)) = (utf16 path, rest)) :
    Plain path := by
  have hprogram : (program (utf16 (quotePath path ++ argumentsOf args))).1 = utf16 path :=
    congrArg Prod.fst h
  cases path with
  | nil => exact absurd rfl hne
  | cons c path =>
      have hhead : c ≠ '"' := by
        rintro rfl
        rw [quotePath_quoted rfl, List.cons_append, utf16_cons] at hprogram
        exact quote_not_mem_program _ (hprogram ▸ quote_mem.2 List.mem_cons_self)
      refine ⟨by simpa using hhead, ?_⟩
      split
      · next hspace =>
          intro hquote
          rw [quotePath, if_pos ⟨hspace, by simpa using hhead⟩, List.cons_append, utf16_cons]
            at hprogram
          exact quote_not_mem_program _ (hprogram ▸ quote_mem.2 hquote)
      · next hspace =>
          intro htab
          rw [quotePath, if_neg fun h => hspace h.1] at hprogram
          rcases blank_mem.2 (.inr htab) with ⟨u, hu, hblank⟩
          have hline : (utf16 (c :: path ++ argumentsOf args)).head? ≠ some 0x22 :=
            head?_utf16 (by simpa using hhead)
          rw [blank_not_mem_program hline (hprogram ▸ hu)] at hblank
          cases hblank

/-- The program and the arguments are read back from the command line exactly when the path
is plain and there is no NUL in either. -/
theorem commandLine_read_iff {path : List Char} (hne : path ≠ []) (args : List Char) :
    program (readWide (wide (quotePath path ++ argumentsOf args))) =
        (utf16 path, utf16 (argumentsOf args)) ↔
      Plain path ∧ '\x00' ∉ path ∧ '\x00' ∉ args := by
  have hnul : '\x00' ∈ quotePath path ++ argumentsOf args ↔ '\x00' ∈ path ∨ '\x00' ∈ args := by
    rw [List.mem_append, nul_mem_argumentsOf, quotePath]
    split <;> simp
  constructor
  · intro h
    have hparts : ∀ t : Text, (0 : UInt16) ∉ t →
        (0 : UInt16) ∉ (program t).1 ∧ (0 : UInt16) ∉ (program t).2 := fun t ht =>
      ⟨fun hmem => ht (mem_of_mem_program (.inl hmem)),
        fun hmem => ht (mem_of_mem_program (.inr hmem))⟩
    have hread := hparts _ (not_nul_mem_readWide (wide (quotePath path ++ argumentsOf args)))
    rw [h, nul_mem, nul_mem, nul_mem_argumentsOf] at hread
    rw [readWide_wide (by tauto)] at h
    exact ⟨plain_of_program hne h, hread⟩
  · rintro ⟨hplain, hpath, hargs⟩
    rw [readWide_wide (by tauto)]
    exact program_quotePath hne hplain args

/-- A path that is quoted already stands for the one between the quotes. -/
theorem commandLine_quoted {path : List Char} (hquote : '"' ∉ path) (hpath : '\x00' ∉ path)
    {args : List Char} (hargs : '\x00' ∉ args) :
    program (readWide (wide (quotePath ('"' :: (path ++ ['"'])) ++ argumentsOf args))) =
      (utf16 path, utf16 (argumentsOf args)) := by
  have hunits : (0x22 : UInt16) ∉ utf16 path := fun h => hquote (quote_mem.1 h)
  have hline : utf16 ('"' :: (path ++ ['"']) ++ argumentsOf args) =
      0x22 :: (utf16 path ++ 0x22 :: utf16 (argumentsOf args)) := by
    rw [List.cons_append, List.append_assoc, utf16_cons, utf16_append, utf16_append]
    rfl
  rw [quotePath_quoted rfl, readWide_wide, hline, program_quoted hunits]
  simp [nul_mem_argumentsOf, hpath, hargs]

/-! ## Starting -/

theorem encode_eq_nil {s : List Char} : Utf8.encode s = [] ↔ s = [] := by
  refine ⟨fun h => ?_, fun h => by rw [h]; rfl⟩
  have hlossy := Utf8.lossy_encode s
  rw [h] at hlossy
  exact hlossy.symm

/-- A string of the control, as it is read from its UTF-8. -/
theorem readUtf8_utf16 (s : List Char) :
    readUtf8 (utf8Encode (utf16 s)) = if s = [] then none else some s := by
  simp only [readUtf8, utf8Encode_utf16, encode_eq_nil, Utf8.lossy_encode]

/-- The session gets the strings of the control, or the default shell. -/
theorem sessionCreate_start (path args dir : List Char) (environment : List Text)
    (scrollback : UInt32) (cols rows : UInt16) :
    ∃ o, sessionCreate (some (startOptions
        ⟨utf16 path, utf16 args, utf16 dir, environment, scrollback⟩ cols rows)) true = .ok o ∧
      o.cmdline = quotePath (if path = [] then defaultShell else path) ++ argumentsOf args ∧
      o.cwd = if dir = [] then none else some dir := by
  refine ⟨_, rfl, ?_, ?_⟩
  · simp only [startOptions, readUtf8_utf16]
    by_cases hpath : path = [] <;> by_cases hargs : args = [] <;>
      simp [hpath, hargs, Option.filter]
  · simp only [startOptions, readUtf8_utf16]
    by_cases hdir : dir = [] <;> simp [hdir, Option.filter]

theorem createProcess_directory {o : SpawnOptions} {dir : List Char}
    (hdir : o.cwd = if dir = [] then none else some dir) :
    (createProcess o).directory = (if dir = [] then none else some (utf16 dir)) ↔
      '\x00' ∉ dir := by
  rw [createProcess, hdir]
  by_cases h : dir = []
  · simp [h]
  · simp [h, readWide_wide_iff]

end RataShell.Ffi.CommandLine
