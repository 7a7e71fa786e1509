import RataShell.Lib.Reader
import RataShell.Control.MouseProtocol

/-!
# Mode 1006, as its format has it

`SendMouseSequence` has one `;` more in the formats of mode 1006 than the comment above them
and the grammar of xterm. `Input.mouseSequence` writes what the comment says; `sgrSequence`
is what the formats give.

* `nextSequence`: a reader of control sequences, whatever they mean.
* `reports_read`: the reports stay apart and none of them is one of mode 1006.
-/

namespace RataShell.SgrReport

open Input (Report ascii ascii_append ascii_toString digit_toNat foldl_digits isDigit ofNat_digit
  parameter parameter_toString sgrReport)
open Reader (read read_append)

/-! ## What is sent -/

/-- `Format`, where every specifier is `%d`. -/
def format : List Char → List Nat → List Char
  | '%' :: 'd' :: cs, n :: args => (toString n).toList ++ format cs args
  | c :: cs, args => c :: format cs args
  | [], _ => []

/-- The bytes of `SendMouseSequence` in mode 1006. -/
def sgrSequence (r : Report) (press : Bool) : List UInt8 :=
  ascii (String.ofList (format
    (if press then "\x1b[<%d;%d;%d;M" else "\x1b[<%d;%d;%d;m").toList [r.cb, r.col, r.row]))

/-- The final byte. -/
def finalByte (press : Bool) : UInt8 := if press then 0x4d else 0x6d

/-- The bytes between the marker and the final byte. -/
def sgrFields (r : Report) : List UInt8 :=
  ascii (toString r.cb) ++ 0x3b :: (ascii (toString r.col) ++
    0x3b :: (ascii (toString r.row) ++ [0x3b]))

theorem sgrSequence_eq (r : Report) (press : Bool) :
    sgrSequence r press = [0x1b, 0x5b, 0x3c] ++ sgrFields r ++ [finalByte press] := by
  cases press <;>
    simp [sgrSequence, sgrFields, finalByte, format, ascii]

/-! ## Control sequences -/

/-- A control sequence with a private marker, if it has one, its parameters and its final
byte. -/
structure ControlSequence where
  marker : Option UInt8
  parameters : List (Option Nat)
  final : UInt8
deriving DecidableEq, Repr

def isParameterByte (b : UInt8) : Bool := 0x30 ≤ b.toNat && b.toNat ≤ 0x3f
def isMarker (b : UInt8) : Bool := 0x3c ≤ b.toNat && b.toNat ≤ 0x3f
def isFinal (b : UInt8) : Bool := 0x40 ≤ b.toNat && b.toNat ≤ 0x7e

/-- The value of a field; an empty one stands for a default. -/
def fieldValue (field : List UInt8) : Option Nat :=
  if field = [] then none
  else some (field.foldl (fun n b => 10 * n + (b.toNat - 0x30)) 0)

/-- The fields of the parameter bytes, and the marker before them. -/
def markerAndFields : List UInt8 → Option UInt8 × List UInt8
  | [] => (none, [])
  | b :: rest => if isMarker b then (some b, rest) else (none, b :: rest)

/-- The first control sequence: parameter bytes up to the final byte. -/
def nextSequence : Reader.Next UInt8 ControlSequence
  | 0x1b :: 0x5b :: rest =>
      match rest.dropWhile isParameterByte with
      | final :: behind =>
          if isFinal final then
            let p := markerAndFields (rest.takeWhile isParameterByte)
            some (⟨p.1, (p.2.splitOn 0x3b).map fieldValue, final⟩, behind)
          else none
      | [] => none
  | _ => none

/-! ## What is read -/

/-- A report as a control sequence. -/
def controlSequence (e : Report × Bool) : ControlSequence :=
  ⟨some 0x3c, [some e.1.cb, some e.1.col, some e.1.row, none], finalByte e.2⟩

theorem isDigit_of_mem {n : Nat} {b : UInt8} (hb : b ∈ ascii (toString n)) : isDigit b = true := by
  rw [ascii_toString, List.mem_map] at hb
  rcases hb with ⟨c, hc, rfl⟩
  have hrange := digit_toNat hc
  simpa [isDigit, ofNat_digit hrange] using hrange

theorem isParameterByte_of_isDigit {b : UInt8} (hb : isDigit b = true) :
    isParameterByte b = true := by
  simp only [isDigit, isParameterByte, Bool.and_eq_true, decide_eq_true_eq] at hb ⊢
  omega

theorem toString_ne_nil (n : Nat) : ascii (toString n) ≠ [] := by
  rw [ascii_toString, ne_eq, List.map_eq_nil_iff]
  exact Nat.toDigits_ne_nil

theorem fieldValue_toString (n : Nat) : fieldValue (ascii (toString n)) = some n := by
  rw [fieldValue, if_neg (toString_ne_nil n), ascii_toString,
    foldl_digits fun c hc => digit_toNat hc]
  exact congrArg some (Nat.ofDigitChars_toDigits (by decide) (by decide))

theorem not_separator_mem (n : Nat) : (0x3b : UInt8) ∉ ascii (toString n) := by
  intro hmem
  have hdigit := isDigit_of_mem hmem
  revert hdigit
  decide

theorem splitOn_sgrFields (r : Report) :
    (sgrFields r).splitOn 0x3b =
      [ascii (toString r.cb), ascii (toString r.col), ascii (toString r.row), []] := by
  rw [sgrFields, List.splitOn_append_cons_self, List.splitOn_append_cons_self,
    List.splitOn_append_cons_self, List.splitOn_nil,
    List.splitOn_eq_singleton (not_separator_mem _),
    List.splitOn_eq_singleton (not_separator_mem _),
    List.splitOn_eq_singleton (not_separator_mem _)]
  rfl

theorem sgrFields_parameterBytes (r : Report) : ∀ b ∈ sgrFields r, isParameterByte b = true := by
  intro b hb
  simp only [sgrFields, List.mem_append, List.mem_cons, List.not_mem_nil, or_false] at hb
  rcases hb with hb | rfl | hb | rfl | hb | rfl
  · exact isParameterByte_of_isDigit (isDigit_of_mem hb)
  · decide
  · exact isParameterByte_of_isDigit (isDigit_of_mem hb)
  · decide
  · exact isParameterByte_of_isDigit (isDigit_of_mem hb)
  · decide

theorem nextSequence_sgrSequence (r : Report) (press : Bool) (rest : List UInt8) :
    nextSequence (sgrSequence r press ++ rest) = some (controlSequence (r, press), rest) := by
  have hparameters : ∀ b ∈ 0x3c :: sgrFields r, isParameterByte b = true :=
    List.forall_mem_cons.2 ⟨by decide, sgrFields_parameterBytes r⟩
  have hfinal : isFinal (finalByte press) = true ∧ isParameterByte (finalByte press) = false := by
    cases press <;> decide
  have hbytes : sgrSequence r press ++ rest =
      0x1b :: 0x5b :: ((0x3c :: sgrFields r) ++ finalByte press :: rest) := by
    simp [sgrSequence_eq]
  have htake : ((0x3c :: sgrFields r) ++ finalByte press :: rest).takeWhile isParameterByte =
      0x3c :: sgrFields r := by
    rw [List.takeWhile_append_of_pos hparameters,
      List.takeWhile_cons_of_neg (by simp [hfinal.2]), List.append_nil]
  have hdrop : ((0x3c :: sgrFields r) ++ finalByte press :: rest).dropWhile isParameterByte =
      finalByte press :: rest := by
    rw [List.dropWhile_append_of_pos hparameters,
      List.dropWhile_cons_of_neg (by simp [hfinal.2])]
  have hmarker : markerAndFields (0x3c :: sgrFields r) = (some 0x3c, sgrFields r) := by
    rw [markerAndFields, if_pos (by decide)]
  simp only [hbytes, nextSequence, hdrop, htake, hfinal.1, if_true, hmarker, splitOn_sgrFields,
    List.map_cons, List.map_nil, fieldValue_toString, controlSequence]
  rfl

theorem sgrReport_sgrSequence (r : Report) (press : Bool) :
    sgrReport (sgrSequence r press) = none := by
  have hsemicolon : isDigit 0x3b = false := by decide
  have hbytes : sgrSequence r press =
      0x1b :: 0x5b :: 0x3c :: (ascii (toString r.cb) ++ 0x3b :: (ascii (toString r.col) ++
        0x3b :: (ascii (toString r.row) ++ 0x3b :: [finalByte press]))) := by
    simp [sgrSequence_eq, sgrFields]
  -- behind the row stands a separator, and neither `M` nor `m`
  simp only [hbytes, sgrReport, parameter_toString _ hsemicolon]
  rfl

/-! ## A stream of reports -/

/-- The reports of some events. -/
def stream (events : List (Report × Bool)) : List UInt8 :=
  events.flatMap fun e => sgrSequence e.1 e.2

theorem read_stream (events : List (Report × Bool)) :
    read nextSequence (stream events) = some (events.map controlSequence) := by
  induction events with
  | nil => rfl
  | cons e events ih =>
      have hne : sgrSequence e.1 e.2 ≠ [] := by simp [sgrSequence_eq]
      exact read_append hne (nextSequence_sgrSequence e.1 e.2 _) ih

theorem controlSequence_injective : Function.Injective controlSequence := by
  rintro ⟨⟨cb, col, row⟩, press⟩ ⟨⟨cb', col', row'⟩, press'⟩ h
  simp only [controlSequence, ControlSequence.mk.injEq, List.cons.injEq, Option.some.injEq] at h
  rcases h with ⟨-, ⟨rfl, rfl, rfl, -⟩, hfinal⟩
  have hpress : press = press' := by
    revert hfinal
    cases press <;> cases press' <;> decide
  rw [hpress]

/-- A program that splits control sequences finds every report whole, with the event in the
first three of four fields, and two runs of events are never sent alike; one that knows the
grammar of mode 1006 takes none of them. -/
theorem reports_read (events : List (Report × Bool)) :
    read nextSequence (stream events) = some (events.map controlSequence) ∧
      (∀ events', stream events' = stream events → events' = events) ∧
      ∀ e ∈ events, sgrReport (sgrSequence e.1 e.2) = none := by
  refine ⟨read_stream events, ?_, fun e _ => sgrReport_sgrSequence e.1 e.2⟩
  intro events' hstream
  have hread := read_stream events'
  rw [hstream, read_stream events] at hread
  exact (List.map_injective_iff.2 controlSequence_injective (Option.some.inj hread)).symm

example : sgrSequence ⟨0, 5, 7⟩ true = ascii "\x1b[<0;5;7;M" := by decide +kernel

end RataShell.SgrReport
