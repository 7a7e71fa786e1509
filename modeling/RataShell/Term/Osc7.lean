import RataShell.Lib.Utf8
import Mathlib.Data.List.Induction

/-!
# The OSC 7 scanner

`TermHost` as far as it takes the working directory out of the output of the shell:
`ESC ] 7 ; <url>`, ended by BEL or by `ESC \`. The scanner reads each byte before
the terminal does and shares nothing with it.

* `scanOsc7`, `handleOsc7Url`, `percentDecode`: the code.
* `sequence_recognized_iff`: the states in which a whole sequence is recognised.
* `overlong_ignored`: a payload that is too long.
* `directory_sound_iff`: the streams that change the directory only by whole sequences.
-/

namespace RataShell.Term

/-- A Rust `String`: its characters. -/
abbrev Str := List Char

/-! ## The URL -/

/-- `to_digit(16)`. -/
def toDigit (c : Char) : Option Nat :=
  if 0x30 ≤ c.toNat ∧ c.toNat ≤ 0x39 then some (c.toNat - 0x30)
  else if 0x61 ≤ c.toNat ∧ c.toNat ≤ 0x66 then some (c.toNat - 0x61 + 10)
  else if 0x41 ≤ c.toNat ∧ c.toNat ≤ 0x46 then some (c.toNat - 0x41 + 10)
  else none

/-- The byte that two hex digits give. -/
def hexByte (x y : UInt8) : Option UInt8 :=
  match toDigit (Char.ofNat x.toNat), toDigit (Char.ofNat y.toNat) with
  | some h, some l => some (.ofNat ((h <<< 4) ||| l))
  | _, _ => none

/-- The loop of `percent_decode`. -/
def percentBytes : List UInt8 → List UInt8
  | b :: x :: y :: rest =>
      if b = 0x25 then
        match hexByte x y with
        | some v => v :: percentBytes rest
        | none => b :: percentBytes (x :: y :: rest)
      else b :: percentBytes (x :: y :: rest)
  | b :: rest => b :: percentBytes rest
  | [] => []

/-- `percent_decode`. -/
def percentDecode (s : Str) : Str := Utf8.lossy (percentBytes (Utf8.encode s))

/-- `file://` -/
def fileScheme : Str := ['f', 'i', 'l', 'e', ':', '/', '/']

/-- The path of a URL: behind `file://` and the host, which ends at the first slash. -/
def urlPath (url : Str) : Str :=
  if fileScheme <+: url then
    let rest := url.drop fileScheme.length
    if '/' ∈ rest then rest.dropWhile (· ≠ '/') else rest
  else url

/-- A Windows path: `/C:/foo` is `C:/foo`. -/
def normalizePath (decoded : Str) : Str :=
  if 3 ≤ (Utf8.encode decoded).length ∧ decoded.head? = some '/' ∧
      (Utf8.encode decoded)[2]? = some 0x3A then
    decoded.drop 1
  else decoded

/-- What `handle_osc7_url` stores. -/
@[irreducible] def osc7Path (url : Str) : Str := normalizePath (percentDecode (urlPath url))

/-! ## The scanner -/

/-- `osc7_state`, `osc7_buf` and `current_cwd` of `TermHost`. -/
structure Osc7 where
  state : Nat
  buf : List UInt8
  currentCwd : Str
deriving DecidableEq, Repr

def ESC : UInt8 := 0x1b
def BEL : UInt8 := 0x07

namespace Osc7

/-- `TermHost::new`. -/
def new : Osc7 := ⟨0, [], []⟩

/-- `handle_osc7_url`. -/
def handleOsc7Url (url : Str) (s : Osc7) : Osc7 := { s with currentCwd := osc7Path url }

/-- `scan_osc7`. -/
def scanOsc7 (b : UInt8) (s : Osc7) : Osc7 :=
  match s.state with
  | 0 => if b = ESC then { s with state := 1 } else s
  | 1 => { s with state := if b = 0x5d then 2 else if b = ESC then 1 else 0 }
  | 2 => { s with state := if b = 0x37 then 3 else 0 }
  | 3 => if b = 0x3b then { s with state := 4, buf := [] } else { s with state := 0 }
  | 4 =>
      if b = BEL ∨ b = ESC then
        -- the backslash of `ESC \` is not waited for
        { s with buf := [], state := if b = ESC then 1 else 0 }.handleOsc7Url (Utf8.lossy s.buf)
      else if 4096 < (s.buf ++ [b]).length then { s with buf := [], state := 0 }
      else { s with buf := s.buf ++ [b] }
  | _ => { s with state := 0 }

/-- `TermHost::advance`, its part for the scanner. -/
def advance (bytes : List UInt8) (s : Osc7) : Osc7 := bytes.foldl (fun s b => s.scanOsc7 b) s

/-- The scanner after some chunks of output. -/
def run (chunks : List (List UInt8)) : Osc7 := chunks.foldl (fun s bytes => s.advance bytes) new

@[simp] theorem advance_nil (s : Osc7) : s.advance [] = s := rfl

@[simp] theorem advance_cons (b : UInt8) (bytes : List UInt8) (s : Osc7) :
    s.advance (b :: bytes) = (s.scanOsc7 b).advance bytes :=
  rfl

theorem advance_append (as bs : List UInt8) (s : Osc7) :
    s.advance (as ++ bs) = (s.advance as).advance bs :=
  List.foldl_append

/-- The cuts between chunks do not show. -/
theorem run_eq (chunks : List (List UInt8)) : run chunks = new.advance chunks.flatten :=
  List.foldl_flatten.symm

/-! ## A sequence -/

/-- `ESC ] 7 ;` -/
def introducer : List UInt8 := [ESC, 0x5d, 0x37, 0x3b]

/-- How a sequence ends. -/
inductive Terminator where
  | bel | st
deriving DecidableEq, Repr

/-- BEL or `ESC \` -/
def Terminator.bytes : Terminator → List UInt8
  | .bel => [BEL]
  | .st => [ESC, 0x5c]

/-- `ESC ] 7 ; <url> (BEL | ESC \)` -/
def sequence (u : List UInt8) (t : Terminator) : List UInt8 := introducer ++ u ++ t.bytes

/-- No byte of a payload ends it. -/
def Free (u : List UInt8) : Prop := ∀ b ∈ u, b ≠ BEL ∧ b ≠ ESC

instance (u : List UInt8) : Decidable (Free u) :=
  inferInstanceAs (Decidable (∀ b ∈ u, b ≠ BEL ∧ b ≠ ESC))

/-- An ESC is lost on the scanner, which waits for `7` or for `;`. -/
def Deaf (s : Osc7) : Prop := s.state = 2 ∨ s.state = 3

instance (s : Osc7) : Decidable s.Deaf := inferInstanceAs (Decidable (_ ∨ _))

variable {s : Osc7}

theorem scanOsc7_idle (hstate : s.state = 0) {b : UInt8} (hb : b ≠ ESC) : s.scanOsc7 b = s := by
  simp [scanOsc7, hstate, hb]

/-- Without an ESC nothing begins. -/
theorem advance_idle (hstate : s.state = 0) {u : List UInt8} (hu : Free u) : s.advance u = s := by
  induction u with
  | nil => rfl
  | cons b u ih =>
      rw [Free, List.forall_mem_cons] at hu
      rw [advance_cons, scanOsc7_idle hstate hu.1.2, ih hu.2]

/-- The end of a sequence whose beginning was missed. -/
theorem advance_terminator_idle (hstate : s.state = 0) (t : Terminator) :
    s.advance t.bytes = s := by
  rcases s with ⟨state, buf, cwd⟩
  cases hstate
  cases t <;> rfl

/-- A payload is collected. -/
theorem advance_payload (hstate : s.state = 4) {u : List UInt8} (hu : Free u)
    (hlength : (s.buf ++ u).length ≤ 4096) : s.advance u = { s with buf := s.buf ++ u } := by
  induction u generalizing s with
  | nil => rw [advance_nil, List.append_nil]
  | cons b u ih =>
      rw [Free, List.forall_mem_cons] at hu
      have hstep : s.scanOsc7 b = { s with buf := s.buf ++ [b] } := by
        have hfits : ¬ 4096 < (s.buf ++ [b]).length := by
          simp only [List.length_append, List.length_cons, List.length_nil] at hlength ⊢
          omega
        simp only [scanOsc7, hstate, hu.1, or_self, if_false, hfits]
      have hrest : ((s.buf ++ [b]) ++ u).length ≤ 4096 := by
        rw [List.append_assoc]
        exact hlength
      rw [advance_cons, hstep, ih (s := { s with buf := s.buf ++ [b] }) hstate hu.2 hrest,
        List.append_assoc]
      rfl

/-- A payload that is too long is given up. -/
theorem advance_overlong (hstate : s.state = 4) {u : List UInt8} (hu : Free u)
    (hbuf : s.buf.length ≤ 4096) (hlength : 4096 < (s.buf ++ u).length) :
    s.advance u = { s with buf := [], state := 0 } := by
  induction u generalizing s with
  | nil =>
      rw [List.append_nil] at hlength
      omega
  | cons b u ih =>
      rw [Free, List.forall_mem_cons] at hu
      rw [advance_cons]
      rcases Nat.lt_or_ge 4096 (s.buf ++ [b]).length with hover | hfits
      · have hstep : s.scanOsc7 b = { s with buf := [], state := 0 } := by
          simp only [scanOsc7, hstate, hu.1, or_self, if_false, hover, if_true]
        rw [hstep, advance_idle rfl hu.2]
      · have hstep : s.scanOsc7 b = { s with buf := s.buf ++ [b] } := by
          simp only [scanOsc7, hstate, hu.1, or_self, if_false, Nat.not_lt.2 hfits]
        have hrest : 4096 < ((s.buf ++ [b]) ++ u).length := by
          rw [List.append_assoc]
          exact hlength
        rw [hstep, ih (s := { s with buf := s.buf ++ [b] }) hstate hu.2 hfits hrest]

/-- The end of a payload. -/
theorem advance_terminator (hstate : s.state = 4) (t : Terminator) :
    s.advance t.bytes = ⟨0, [], osc7Path (Utf8.lossy s.buf)⟩ := by
  rcases s with ⟨state, buf, cwd⟩
  cases hstate
  cases t with
  | bel => simp [Terminator.bytes, scanOsc7, handleOsc7Url, BEL, ESC]
  | st => simp [Terminator.bytes, scanOsc7, handleOsc7Url, BEL, ESC]

/-! ## Invariants -/

/-- What one byte can do. -/
inductive Scanned (s : Osc7) (b : UInt8) : Osc7 → Prop where
  | escaped (hstate : s.state ≠ 4) (hb : b = ESC) : Scanned s b { s with state := 1 }
  | bracket (hstate : s.state = 1) (hb : b = 0x5d) : Scanned s b { s with state := 2 }
  | seven (hstate : s.state = 2) (hb : b = 0x37) : Scanned s b { s with state := 3 }
  | opened (hstate : s.state = 3) (hb : b = 0x3b) : Scanned s b { s with state := 4, buf := [] }
  | dropped (hstate : s.state ≠ 4) : Scanned s b { s with state := 0 }
  | closed (hstate : s.state = 4) (hb : b = BEL ∨ b = ESC) :
      Scanned s b ⟨if b = ESC then 1 else 0, [], osc7Path (Utf8.lossy s.buf)⟩
  | collected (hstate : s.state = 4) (hb : b ≠ BEL ∧ b ≠ ESC) (hfits : s.buf.length < 4096) :
      Scanned s b { s with buf := s.buf ++ [b] }
  | overflown (hstate : s.state = 4) (hb : b ≠ BEL ∧ b ≠ ESC) :
      Scanned s b { s with buf := [], state := 0 }

theorem scanOsc7_scanned (s : Osc7) (b : UInt8) : Scanned s b (s.scanOsc7 b) := by
  rcases s with ⟨state, buf, cwd⟩
  have hne : ∀ n, n ≠ 4 → (⟨n, buf, cwd⟩ : Osc7).state ≠ 4 := fun _ h => h
  match state with
  | 0 =>
      simp only [scanOsc7]
      split
      · exact .escaped (hne 0 (by decide)) ‹_›
      · exact .dropped (hne 0 (by decide))
  | 1 =>
      simp only [scanOsc7]
      split
      · exact .bracket rfl ‹_›
      · split
        · exact .escaped (hne 1 (by decide)) ‹_›
        · exact .dropped (hne 1 (by decide))
  | 2 =>
      simp only [scanOsc7]
      split
      · exact .seven rfl ‹_›
      · exact .dropped (hne 2 (by decide))
  | 3 =>
      simp only [scanOsc7]
      split
      · exact .opened rfl ‹_›
      · exact .dropped (hne 3 (by decide))
  | 4 =>
      simp only [scanOsc7]
      split
      · exact .closed rfl ‹_›
      · rename_i hb
        rw [not_or] at hb
        split
        · exact .overflown rfl hb
        · rename_i hfits
          rw [List.length_append, Nat.not_lt] at hfits
          exact .collected rfl hb hfits
  | n + 5 => exact .dropped (hne (n + 5) (by omega))

/-- What every state between bytes is like. -/
structure Valid (s : Osc7) : Prop where
  state : s.state ≤ 4
  buf : s.buf.length ≤ 4096
  closed : s.state ≠ 4 → s.buf = []

theorem new_valid : new.Valid := ⟨by decide, by decide, fun _ => rfl⟩

theorem Scanned.valid {b : UInt8} {s' : Osc7} (hscan : Scanned s b s') (h : s.Valid) :
    s'.Valid := by
  cases hscan with
  | escaped hstate hb => exact ⟨(by decide : 1 ≤ 4), h.buf, fun _ => h.closed hstate⟩
  | bracket hstate hb => exact ⟨(by decide : 2 ≤ 4), h.buf, fun _ => h.closed (by simp [hstate])⟩
  | seven hstate hb => exact ⟨(by decide : 3 ≤ 4), h.buf, fun _ => h.closed (by simp [hstate])⟩
  | opened hstate hb => exact ⟨Nat.le_refl 4, Nat.zero_le 4096, fun _ => rfl⟩
  | dropped hstate => exact ⟨Nat.zero_le 4, h.buf, fun _ => h.closed hstate⟩
  | closed hstate hb =>
      refine ⟨?_, Nat.zero_le 4096, fun _ => rfl⟩
      show (if b = ESC then 1 else 0) ≤ 4
      split <;> decide
  | collected hstate hb hfits =>
      refine ⟨h.state, ?_, fun hne => absurd hstate hne⟩
      rw [List.length_append]
      exact hfits
  | overflown hstate hb => exact ⟨Nat.zero_le 4, Nat.zero_le 4096, fun _ => rfl⟩

theorem advance_valid (h : s.Valid) (bytes : List UInt8) : (s.advance bytes).Valid := by
  induction bytes generalizing s with
  | nil => exact h
  | cons b bytes ih => exact ih ((scanOsc7_scanned s b).valid h)

/-- The states after any output. -/
theorem run_valid (chunks : List (List UInt8)) : (run chunks).Valid := by
  rw [run_eq]
  exact advance_valid new_valid _

/-- A beginning is read, unless the scanner is deaf; it ends a payload that is open. -/
theorem advance_introducer (h : s.Valid) (hdeaf : ¬ s.Deaf) :
    s.advance introducer =
      ⟨4, [], if s.state = 4 then osc7Path (Utf8.lossy s.buf) else s.currentCwd⟩ := by
  rcases s with ⟨state, buf, cwd⟩
  match state, h.state with
  | 0, _ | 1, _ => simp [introducer, scanOsc7, ESC]
  | 4, _ => simp [introducer, scanOsc7, handleOsc7Url, BEL, ESC]
  | 2, _ => exact absurd (.inl rfl) hdeaf
  | 3, _ => exact absurd (.inr rfl) hdeaf

theorem advance_introducer_deaf (hdeaf : s.Deaf) :
    s.advance introducer = { s with state := 0 } := by
  rcases s with ⟨state, buf, cwd⟩
  rcases hdeaf with hstate | hstate
  · cases hstate
    rfl
  · cases hstate
    rfl

/-- What the bytes read so far end with. -/
def History (bytes : List UInt8) (s : Osc7) : Prop :=
  match s.state with
  | 1 => [ESC] <:+ bytes
  | 2 => [ESC, 0x5d] <:+ bytes
  | 3 => [ESC, 0x5d, 0x37] <:+ bytes
  | 4 => introducer ++ s.buf <:+ bytes ∧ Free s.buf
  | _ => True

theorem suffix_snoc {u bytes : List UInt8} (h : u <:+ bytes) (b : UInt8) :
    u ++ [b] <:+ bytes ++ [b] := by
  rcases h with ⟨q, rfl⟩
  exact ⟨q, (List.append_assoc q u [b]).symm⟩

theorem Scanned.history {b : UInt8} {s' : Osc7} (hscan : Scanned s b s') {bytes : List UInt8}
    (h : History bytes s) : History (bytes ++ [b]) s' := by
  cases hscan with
  | escaped hstate hb =>
      rw [hb]
      exact List.suffix_append bytes [ESC]
  | bracket hstate hb =>
      simp only [History, hstate] at h
      rw [hb]
      exact suffix_snoc h 0x5d
  | seven hstate hb =>
      simp only [History, hstate] at h
      rw [hb]
      exact suffix_snoc h 0x37
  | opened hstate hb =>
      simp only [History, hstate] at h
      rw [hb]
      exact ⟨suffix_snoc h 0x3b, by simp [Free]⟩
  | dropped hstate => trivial
  | closed hstate hb =>
      rcases hb with rfl | rfl
      · trivial
      · exact List.suffix_append bytes [ESC]
  | collected hstate hb hfits =>
      simp only [History, hstate] at h ⊢
      refine ⟨?_, ?_⟩
      · rw [← List.append_assoc]
        exact suffix_snoc h.1 b
      · rw [Free, List.forall_mem_append, List.forall_mem_singleton]
        exact ⟨h.2, hb⟩
  | overflown hstate hb => trivial

theorem advance_history (bytes : List UInt8) : History bytes (new.advance bytes) := by
  induction bytes using List.reverseRecOn with
  | nil => trivial
  | append_singleton bytes b ih =>
      rw [advance_append]
      exact (scanOsc7_scanned _ b).history ih

/-! ## Whole sequences -/

/-- What a sequence leaves behind. -/
theorem advance_sequence (h : s.Valid) (hdeaf : ¬ s.Deaf) {u : List UInt8} (hu : Free u)
    (hlength : u.length ≤ 4096) (t : Terminator) :
    s.advance (sequence u t) = ⟨0, [], osc7Path (Utf8.lossy u)⟩ := by
  have hcollect : ∀ cwd, (⟨4, [], cwd⟩ : Osc7).advance u = ⟨4, u, cwd⟩ :=
    fun cwd => advance_payload (s := ⟨4, [], cwd⟩) rfl hu hlength
  rw [sequence, advance_append, advance_append, advance_introducer h hdeaf, hcollect,
    advance_terminator rfl]

/-- A scanner that is deaf does not see it. -/
theorem advance_sequence_deaf (hdeaf : s.Deaf) {u : List UInt8} (hu : Free u) (t : Terminator) :
    s.advance (sequence u t) = { s with state := 0 } := by
  rw [sequence, advance_append, advance_append, advance_introducer_deaf hdeaf,
    advance_idle rfl hu, advance_terminator_idle rfl]

/-- After any output a whole sequence sets the working directory exactly where the
scanner is not deaf, or where that is the directory already. -/
theorem sequence_recognized_iff (chunks : List (List UInt8)) {u : List UInt8} (hu : Free u)
    (hlength : u.length ≤ 4096) (t : Terminator) :
    ((run chunks).advance (sequence u t)).currentCwd = osc7Path (Utf8.lossy u) ↔
      ¬ (run chunks).Deaf ∨ (run chunks).currentCwd = osc7Path (Utf8.lossy u) := by
  by_cases hdeaf : (run chunks).Deaf
  · rw [advance_sequence_deaf hdeaf hu]
    simp [hdeaf]
  · rw [advance_sequence (run_valid chunks) hdeaf hu hlength]
    simp [hdeaf]

/-- `file:///a` -/
def fileA : List UInt8 := [0x66, 0x69, 0x6c, 0x65, 0x3a, 0x2f, 0x2f, 0x2f, 0x61]

/-- A sequence behind another one that broke off after `ESC ]`. -/
theorem sequence_lost :
    Free fileA ∧ fileA.length ≤ 4096 ∧
      ((run [[ESC, 0x5d]]).advance (sequence fileA .bel)).currentCwd ≠
        osc7Path (Utf8.lossy fileA) := by
  decide +kernel

theorem sequence_recognized :
    ((run [[0x61], [ESC]]).advance (sequence fileA .st)).currentCwd = ['/', 'a'] := by
  have hnew := (sequence_recognized_iff [[0x61], [ESC]] (u := fileA) (by decide +kernel)
    (by decide +kernel) .st).2 (.inl (by decide))
  rw [hnew]
  decide +kernel

/-- A payload that is too long changes nothing, and behind its end the scanner is as
new. -/
theorem overlong_ignored (chunks : List (List UInt8)) :
    (run chunks).buf.length ≤ 4096 ∧ ((run chunks).state ≠ 4 → (run chunks).buf = []) ∧
      ∀ u, Free u → 4096 < u.length → (run chunks).state ≠ 4 →
        ((run chunks).advance (introducer ++ u)).currentCwd = (run chunks).currentCwd ∧
        ∀ t, (run chunks).advance (sequence u t) =
          { new with currentCwd := (run chunks).currentCwd } := by
  have hvalid := run_valid chunks
  refine ⟨hvalid.buf, hvalid.closed, ?_⟩
  intro u hu hlength hstate
  have hpayload : (run chunks).advance (introducer ++ u) =
      { new with currentCwd := (run chunks).currentCwd } := by
    rw [advance_append]
    by_cases hdeaf : (run chunks).Deaf
    · -- the payload was not even begun
      rw [advance_introducer_deaf hdeaf, advance_idle rfl hu, hvalid.closed hstate]
      rfl
    · rw [advance_introducer hvalid hdeaf, if_neg hstate]
      exact advance_overlong (s := ⟨4, [], _⟩) rfl hu (Nat.zero_le 4096) hlength
  refine ⟨by rw [hpayload], fun t => ?_⟩
  rw [sequence, advance_append, hpayload, advance_terminator_idle rfl]

/-- 4097 letters. -/
theorem overlong_letters :
    (run [[0x61]]).advance (sequence (List.replicate 4097 0x61) .bel) =
      { new with currentCwd := (run [[0x61]]).currentCwd } := by
  have hfree : Free (List.replicate 4097 0x61) := by
    intro b hb
    rw [List.eq_of_mem_replicate hb]
    decide
  have hlength : 4096 < (List.replicate 4097 (0x61 : UInt8)).length := by
    rw [List.length_replicate]
    decide
  exact ((overlong_ignored [[0x61]]).2.2 _ hfree hlength (by decide)).2 .bel

/-! ## Soundness -/

/-- Whenever the working directory changes, a whole sequence has been read that gives
the new one. `ESC \` may come to its end with the byte behind. -/
def Sound (bytes : List UInt8) : Prop :=
  ∀ q b rest, bytes = q ++ b :: rest →
    (new.advance (q ++ [b])).currentCwd ≠ (new.advance q).currentCwd →
    ∃ pre u, q = pre ++ introducer ++ u ∧ Free u ∧ u.length ≤ 4096 ∧
      (new.advance (q ++ [b])).currentCwd = osc7Path (Utf8.lossy u) ∧
      (b = BEL ∨ b = ESC ∧ (rest = [] ∨ [0x5c] <+: rest))

/-- Each ESC in a payload that gives another directory is part of `ESC \`. -/
def Answered (bytes : List UInt8) : Prop :=
  ∀ q rest, bytes = q ++ ESC :: rest → (new.advance q).state = 4 →
    osc7Path (Utf8.lossy (new.advance q).buf) ≠ (new.advance q).currentCwd →
    rest = [] ∨ [0x5c] <+: rest

/-- The directory changes only where a payload ends. -/
theorem Scanned.change {b : UInt8} {s' : Osc7} (hscan : Scanned s b s')
    (hne : s'.currentCwd ≠ s.currentCwd) :
    s.state = 4 ∧ (b = BEL ∨ b = ESC) ∧ s'.currentCwd = osc7Path (Utf8.lossy s.buf) := by
  cases hscan with
  | closed hstate hb => exact ⟨hstate, hb, rfl⟩
  | escaped | bracket | seven | opened | dropped | collected | overflown => exact absurd rfl hne

/-- A stream changes the directory only by whole sequences exactly when each ESC in a
payload is answered. -/
theorem directory_sound_iff (bytes : List UInt8) : Sound bytes ↔ Answered bytes := by
  constructor
  · intro hsound q rest hbytes hstate hne
    have hadvance : new.advance (q ++ [ESC]) =
        ⟨1, [], osc7Path (Utf8.lossy (new.advance q).buf)⟩ := by
      rw [advance_append, advance_cons, advance_nil]
      simp [scanOsc7, hstate, handleOsc7Url]
    have hchange : (new.advance (q ++ [ESC])).currentCwd ≠ (new.advance q).currentCwd := by
      rw [hadvance]
      exact hne
    rcases hsound q ESC rest hbytes hchange with ⟨pre, u, hq, hu, hlength, hcwd, hbel | hesc⟩
    · exact absurd hbel (by decide)
    · exact hesc.2
  · intro hanswered q b rest hbytes hchange
    have hvalid : (new.advance q).Valid := advance_valid new_valid q
    have hhistory := advance_history q
    rw [advance_append] at hchange
    rcases (scanOsc7_scanned (new.advance q) b).change hchange with ⟨hstate, hb, hcwd⟩
    simp only [History, hstate] at hhistory
    rcases hhistory with ⟨⟨pre, hpre⟩, hfree⟩
    refine ⟨pre, (new.advance q).buf, ?_, hfree, hvalid.buf, ?_, ?_⟩
    · rw [List.append_assoc, hpre]
    · rw [advance_append]
      exact hcwd
    · rcases hb with hbel | hesc
      · exact .inl hbel
      · subst hesc
        refine .inr ⟨rfl, hanswered q rest hbytes hstate ?_⟩
        rw [← hcwd]
        exact hchange

/-- A payload that is cut off by ESC and another byte changes the directory. -/
theorem cut_off_unsound : ¬ Sound (introducer ++ fileA ++ [ESC, 0x78]) := by
  intro hsound
  rcases hsound (introducer ++ fileA) ESC [0x78] (List.append_assoc _ _ _) (by decide +kernel) with
    ⟨pre, u, hq, hu, hlength, hcwd, hbel | ⟨_, hnil | hrest⟩⟩
  · exact absurd hbel (by decide)
  · cases hnil
  · exact absurd hrest (by decide)

end Osc7

end RataShell.Term
