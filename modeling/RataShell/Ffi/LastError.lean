import Mathlib.Data.List.TakeWhile
import Mathlib.Logic.Function.Basic
import RataShell.Lib.Machine
import RataShell.Ffi.Getters

/-!
# The last error

`store` keeps the text of an error for its thread and for all, in two steps, and
`RataLastError` asks for its length and then for the text. Other threads may do the same
between any two of these steps.

* `message_read`: what a thread reads.
* `resultText_read`: the text of a failed call has its own error, that of a panic not.
-/

namespace RataShell.Ffi.LastError

variable {τ : Type}

/-! ## Errors -/

inductive RataError where
  | invalid
  | arg (s : List Char)
  | state (s : List Char)
  | os (s : List Char)
  | io (s : List Char)
deriving DecidableEq, Repr

/-- `RataError::code`. -/
def RataError.code : RataError → Int
  | invalid => -1
  | arg _ => -2
  | state _ => -3
  | os _ => -4
  | io _ => -5

def RATA_OK : Int := 0
def RATA_ERR_PANIC : Int := -99

/-- `fmt` of `Display`. -/
def RataError.fmt : RataError → List Char
  | invalid => "invalid handle or null pointer".toList
  | arg s => "invalid argument: ".toList ++ s
  | state s => "invalid state: ".toList ++ s
  | os s => "os error: ".toList ++ s
  | io s => "io error: ".toList ++ s

/-- The codes of `RataResultText`. -/
def codeText (code : Int) : List Char :=
  if code = 0 then "OK".toList
  else if code = -1 then "invalid handle".toList
  else if code = -2 then "invalid argument".toList
  else if code = -3 then "invalid state".toList
  else if code = -4 then "OS error".toList
  else if code = -5 then "I/O error".toList
  else if code = -99 then "panic".toList
  else "error ".toList ++ (toString code).toList

/-- `RataResultText` in UTF-8, with what `RataLastError` gives. -/
def resultText (code : Int) (message : List UInt8) : List UInt8 :=
  if code = RATA_OK ∨ message = [] then Utf8.encode (codeText code)
  else Utf8.encode (codeText code) ++ Utf8.encode ": ".toList ++ message

/-! ## Threads -/

/-- What a call comes to. -/
inductive Result where
  | ok
  | failed (e : RataError)
  | panicked
deriving DecidableEq, Repr

def Result.code : Result → Int
  | ok => RATA_OK
  | failed e => e.code
  | panicked => RATA_ERR_PANIC

/-- Where a thread is: in neither function, between the two steps of `store`, or between
the two calls of `RataLastError`. -/
inductive Phase where
  | idle
  | storing
  | asked (len : Nat)
deriving DecidableEq, Repr

/-- A thread with its `LAST_ERR`, its last call, the last error that it has stored, and
what it has read since its last call. -/
structure Thread where
  lastErr : List Char
  phase : Phase
  result : Option Result
  stored : Option RataError
  message : Option (List UInt8)

/-- The threads and `GLOBAL_ERR`, with the texts that it has had. -/
structure State (τ : Type) where
  thread : τ → Thread
  globalErr : List Char
  published : List (List Char)

namespace State

/-- What `last_error_copy` reads on a thread. -/
def host (s : State τ) (t : τ) : Host := ⟨none, (s.thread t).lastErr, s.globalErr⟩

def set [DecidableEq τ] (s : State τ) (t : τ) (th : Thread) : State τ :=
  { s with thread := Function.update s.thread t th }

end State

/-- The bytes at an address, up to the NUL. -/
def cString (bytes : List UInt8) : List UInt8 := bytes.takeWhile (· ≠ 0)

/-- What stands in `LBuf` after the second call. -/
def copied (h : Host) (len : Nat) : List UInt8 :=
  cString ((lastErrorMessage h 1 (len + 1) fun _ => 0).2.read 1 (len + 1))

inductive Label (τ : Type) where
  | succeed (t : τ)
  | fail (t : τ) (e : RataError)
  | publish (t : τ)
  | panic (t : τ)
  | ask (t : τ)
  | copy (t : τ)

/-- A step of a thread, if it is there. -/
def step [DecidableEq τ] (a : Label τ) (s : State τ) : Option (State τ) :=
  match a with
  | .succeed t =>
      if (s.thread t).phase = .idle then
        some (s.set t { s.thread t with result := some .ok, message := none })
      else none
  | .fail t e =>
      if (s.thread t).phase = .idle then
        some (s.set t ⟨e.fmt, .storing, some (.failed e), some e, none⟩)
      else none
  | .publish t =>
      if (s.thread t).phase = .storing then
        some { s.set t { s.thread t with phase := .idle } with
          globalErr := (s.thread t).lastErr
          published := (s.thread t).lastErr :: s.published }
      else none
  | .panic t =>
      if (s.thread t).phase = .idle then
        some (s.set t { s.thread t with result := some .panicked, message := none })
      else none
  | .ask t =>
      if (s.thread t).phase = .idle then
        let len := (lastErrorMessage (s.host t) 0 0 fun _ => 0).1
        if len = 0 then some (s.set t { s.thread t with message := some [] })
        else some (s.set t { s.thread t with phase := .asked len })
      else none
  | .copy t =>
      match (s.thread t).phase with
      | .asked len =>
          some (s.set t { s.thread t with phase := .idle, message := some (copied (s.host t) len) })
      | _ => none

/-- No thread has called anything. -/
def init : State τ := ⟨fun _ => ⟨[], .idle, none, none, none⟩, [], [[]]⟩

def machine (τ : Type) [DecidableEq τ] : Lts.Machine (State τ) (Label τ) where
  Init := (· = init)
  step := step

/-! ## Copies -/

theorem fmt_ne_nil (e : RataError) : e.fmt ≠ [] := by
  cases e with
  | invalid => decide +kernel
  | arg s => exact List.append_ne_nil_of_left_ne_nil (by decide +kernel) s
  | state s => exact List.append_ne_nil_of_left_ne_nil (by decide +kernel) s
  | os s => exact List.append_ne_nil_of_left_ne_nil (by decide +kernel) s
  | io s => exact List.append_ne_nil_of_left_ne_nil (by decide +kernel) s

theorem lastErrorMessage_length (h : Host) :
    (lastErrorMessage h 0 0 fun _ => 0).1 = (Utf8.encode (lastErrorCopy h)).length := by
  simp [lastErrorMessage, copyText]

theorem cString_append_zero (bytes rest : List UInt8) :
    cString (bytes ++ 0 :: rest) = cString bytes := by
  induction bytes with
  | nil => rfl
  | cons b bytes ih =>
      simp only [cString, List.cons_append, List.takeWhile_cons] at ih ⊢
      rw [ih]

/-- What stands behind a NUL is not read. -/
theorem cString_read {m : Memory} {buf n len : Nat} (hle : n ≤ len) (hnul : m (buf + n) = 0) :
    cString (m.read buf (len + 1)) = cString (m.read buf n) := by
  have hlen : len + 1 = n + (len - n + 1) := by omega
  have hread : m.read buf (len + 1) =
      m.read buf n ++ 0 :: (List.range (len - n)).map fun i => m (buf + (n + (i + 1))) := by
    rw [Memory.read, Memory.read, hlen, List.range_add, List.range_succ_eq_map]
    simp [hnul]
  rw [hread, cString_append_zero]

theorem copied_eq (h : Host) (len : Nat) :
    copied h len = cString ((Utf8.encode (lastErrorCopy h)).take len) := by
  rcases read_copyText (lastErrorCopy h) Nat.one_ne_zero (Nat.succ_pos len) (fun _ => 0) with
    ⟨hcount, hread, hnul, -⟩
  simp only [Nat.succ_eq_add_one, Nat.add_sub_cancel] at hcount hread hnul
  rw [copied, lastErrorMessage, cString_read (by rw [hcount]; omega) hnul, hread]

/-- The text of every error begins before its first NUL. -/
theorem cString_fmt_ne_nil (e : RataError) : cString (Utf8.encode e.fmt) ≠ [] := by
  have happend : ∀ (lit : String) (s : List Char), (cString (Utf8.encode lit.toList)) ≠ [] →
      cString (Utf8.encode (lit.toList ++ s)) ≠ [] := by
    intro lit s hlit
    rw [Utf8.encode_append]
    cases hbytes : Utf8.encode lit.toList with
    | nil => simp [hbytes, cString] at hlit
    | cons b bytes =>
        simp only [hbytes, cString, List.takeWhile_cons, List.cons_append] at hlit ⊢
        split at hlit
        · next hb =>
            rw [if_pos hb]
            exact List.cons_ne_nil _ _
        · exact absurd rfl hlit
  cases e with
  | invalid => decide +kernel
  | arg s => exact happend _ s (by decide +kernel)
  | state s => exact happend _ s (by decide +kernel)
  | os s => exact happend _ s (by decide +kernel)
  | io s => exact happend _ s (by decide +kernel)

/-! ## The invariant -/

/-- The length that a thread may be told: that of its own error, or of a text for all. -/
def AsksOf (published : List (List Char)) : Option RataError → Nat → Prop
  | some e, len => len = (Utf8.encode e.fmt).length
  | none, len => ∃ text ∈ published, len = (Utf8.encode text).length

/-- The bytes that it may read: its own error, or one text for all in the length of
another. -/
def ReadsOf (published : List (List Char)) : Option RataError → List UInt8 → Prop
  | some e, bytes => bytes = cString (Utf8.encode e.fmt)
  | none, bytes => ∃ asked ∈ published, ∃ text ∈ published,
      bytes = cString ((Utf8.encode text).take (Utf8.encode asked).length)

structure ThreadInv (published : List (List Char)) (th : Thread) : Prop where
  own : th.lastErr = (th.stored.map RataError.fmt).getD []
  failed : ∀ e, th.result = some (.failed e) → th.stored = some e
  asked : ∀ len, th.phase = .asked len → AsksOf published th.stored len
  message : ∀ bytes, th.message = some bytes → ReadsOf published th.stored bytes

structure Inv (s : State τ) : Prop where
  threads : ∀ t, ThreadInv s.published (s.thread t)
  globalErr : s.globalErr ∈ s.published

theorem ThreadInv.mono {published : List (List Char)} {th : Thread} (h : ThreadInv published th)
    (text : List Char) : ThreadInv (text :: published) th := by
  refine ⟨h.own, h.failed, fun len hlen => ?_, fun bytes hbytes => ?_⟩
  · have hasked := h.asked len hlen
    cases hstored : th.stored with
    | some e =>
        rw [hstored] at hasked
        exact hasked
    | none =>
        rw [hstored] at hasked
        rcases hasked with ⟨text', hmem, hlen'⟩
        exact ⟨text', List.mem_cons_of_mem _ hmem, hlen'⟩
  · have hread := h.message bytes hbytes
    cases hstored : th.stored with
    | some e =>
        rw [hstored] at hread
        exact hread
    | none =>
        rw [hstored] at hread
        rcases hread with ⟨asked, hasked, text', htext, hbytes'⟩
        exact ⟨asked, List.mem_cons_of_mem _ hasked, text', List.mem_cons_of_mem _ htext, hbytes'⟩

/-- The error that a thread reads. -/
theorem lastErrorCopy_host {s : State τ} (hs : Inv s) (t : τ) :
    lastErrorCopy (s.host t) =
      match (s.thread t).stored with
      | some e => e.fmt
      | none => s.globalErr := by
  have hown := (hs.threads t).own
  cases hstored : (s.thread t).stored with
  | some e =>
      rw [hstored] at hown
      simp only [lastErrorCopy, State.host, hown, Option.map_some, Option.getD_some,
        if_neg (fmt_ne_nil e)]
  | none =>
      rw [hstored] at hown
      simp only [lastErrorCopy, State.host, hown, Option.map_none, Option.getD_none, if_true]

theorem ask_spec {s : State τ} (hs : Inv s) (t : τ) :
    AsksOf s.published (s.thread t).stored (lastErrorMessage (s.host t) 0 0 fun _ => 0).1 := by
  rw [lastErrorMessage_length, lastErrorCopy_host hs]
  cases (s.thread t).stored with
  | some e => rfl
  | none => exact ⟨s.globalErr, hs.globalErr, rfl⟩

theorem copy_spec {s : State τ} (hs : Inv s) {t : τ} {len : Nat}
    (hlen : AsksOf s.published (s.thread t).stored len) :
    ReadsOf s.published (s.thread t).stored (copied (s.host t) len) := by
  rw [copied_eq, lastErrorCopy_host hs]
  cases hstored : (s.thread t).stored with
  | some e =>
      rw [hstored] at hlen
      simp only [ReadsOf]
      rw [hlen, List.take_length]
  | none =>
      rw [hstored] at hlen
      rcases hlen with ⟨asked, hasked, rfl⟩
      exact ⟨asked, hasked, s.globalErr, hs.globalErr, rfl⟩

theorem init_inv : Inv (init : State τ) := by
  refine ⟨fun t => ⟨rfl, ?_, ?_, ?_⟩, List.mem_singleton.2 rfl⟩
  · rintro e ⟨⟩
  · rintro len ⟨⟩
  · rintro bytes ⟨⟩

variable [DecidableEq τ]

/-- A step that one thread takes without a text for all. -/
theorem Inv.set {s : State τ} (hs : Inv s) {t : τ} {th : Thread}
    (hth : ThreadInv s.published th) : Inv (s.set t th) := by
  refine ⟨fun u => ?_, hs.globalErr⟩
  by_cases hu : u = t
  · subst hu
    simpa [State.set] using hth
  · simpa [State.set, hu] using hs.threads u

theorem step_inv {a : Label τ} {s s' : State τ} (hstep : step a s = some s') (hs : Inv s) :
    Inv s' := by
  cases a with
  | succeed t =>
      simp only [step, Option.ite_none_right_eq_some, Option.some.injEq] at hstep
      rcases hstep with ⟨hidle, rfl⟩
      have ht := hs.threads t
      refine hs.set ⟨ht.own, ?_, ht.asked, ?_⟩
      · rintro e ⟨⟩
      · rintro bytes ⟨⟩
  | fail t e =>
      simp only [step, Option.ite_none_right_eq_some, Option.some.injEq] at hstep
      rcases hstep with ⟨hidle, rfl⟩
      refine hs.set ⟨rfl, ?_, ?_, ?_⟩
      · rintro e' ⟨⟩
        rfl
      · rintro len ⟨⟩
      · rintro bytes ⟨⟩
  | publish t =>
      simp only [step, Option.ite_none_right_eq_some, Option.some.injEq] at hstep
      rcases hstep with ⟨hstoring, rfl⟩
      refine ⟨fun u => ?_, List.mem_cons_self⟩
      have ht := (hs.threads t).mono (s.thread t).lastErr
      by_cases hu : u = t
      · subst hu
        simp only [State.set, Function.update_self]
        refine ⟨ht.own, ht.failed, ?_, ht.message⟩
        rintro len ⟨⟩
      · simpa [State.set, hu] using (hs.threads u).mono (s.thread t).lastErr
  | panic t =>
      simp only [step, Option.ite_none_right_eq_some, Option.some.injEq] at hstep
      rcases hstep with ⟨hidle, rfl⟩
      have ht := hs.threads t
      refine hs.set ⟨ht.own, ?_, ht.asked, ?_⟩
      · rintro e ⟨⟩
      · rintro bytes ⟨⟩
  | ask t =>
      have hask := ask_spec hs t
      have ht := hs.threads t
      simp only [step, Option.ite_none_right_eq_some] at hstep
      rcases hstep with ⟨hidle, hstep⟩
      split at hstep
      · next hlen =>
          cases hstep
          refine hs.set ⟨ht.own, ht.failed, ht.asked, ?_⟩
          rintro bytes ⟨⟩
          -- nothing has been stored, and the text for all is empty
          have hread := copy_spec hs hask
          rw [hlen, copied_eq, List.take_zero] at hread
          exact hread
      · cases hstep
        refine hs.set ⟨ht.own, ht.failed, ?_, ht.message⟩
        rintro len ⟨⟩
        exact hask
  | copy t =>
      simp only [step] at hstep
      split at hstep
      · next len hasked =>
          cases hstep
          have ht := hs.threads t
          refine hs.set ⟨ht.own, ht.failed, ?_, ?_⟩
          · rintro len' ⟨⟩
          · rintro bytes ⟨⟩
            exact copy_spec hs (ht.asked len hasked)
      · cases hstep

theorem reachable_inv {s : State τ} (hs : (machine τ).Reachable (fun _ _ => True) s) : Inv s := by
  refine Lts.Machine.init_invariant Inv ?_ (fun a s s' _ hstep hs => step_inv hstep hs) hs
  rintro s rfl
  exact init_inv

/-! ## What is read -/

/-- A thread that has stored an error reads the last one that it has stored, whatever the
others do; any other thread reads a text for all, cut to the length of one that was there
before. -/
theorem message_read {s : State τ} (hs : (machine τ).Reachable (fun _ _ => True) s) {t : τ}
    {bytes : List UInt8} (hbytes : (s.thread t).message = some bytes) :
    ReadsOf s.published (s.thread t).stored bytes :=
  ((reachable_inv hs).threads t).message bytes hbytes

theorem resultText_ne_ok {code : Int} (hcode : code ≠ RATA_OK) {message : List UInt8}
    (hmessage : message ≠ []) : resultText code message =
      Utf8.encode (codeText code) ++ Utf8.encode ": ".toList ++ message :=
  if_neg (by rintro (h | h) <;> contradiction)

theorem code_ne_ok (e : RataError) : e.code ≠ RATA_OK := by
  cases e <;> simp [RataError.code, RATA_OK]

/-- The text of a failed call names this call's error, however the threads take their steps
and also between the two calls that read it. The text of a panic, which stores nothing,
names the last error of an earlier call of this thread, or else a text for all. -/
theorem resultText_read {s : State τ} (hs : (machine τ).Reachable (fun _ _ => True) s) {t : τ}
    {r : Result} (hr : (s.thread t).result = some r) {bytes : List UInt8}
    (hbytes : (s.thread t).message = some bytes) :
    (∀ e, r = .failed e → resultText r.code bytes =
      Utf8.encode (codeText e.code) ++ Utf8.encode ": ".toList ++
        cString (Utf8.encode e.fmt)) ∧
    (r = .panicked →
      (∀ e, (s.thread t).stored = some e → resultText r.code bytes =
        Utf8.encode "panic".toList ++ Utf8.encode ": ".toList ++ cString (Utf8.encode e.fmt)) ∧
      ((s.thread t).stored = none → ∃ asked ∈ s.published, ∃ text ∈ s.published,
        resultText r.code bytes = resultText RATA_ERR_PANIC
          (cString ((Utf8.encode text).take (Utf8.encode asked).length)))) := by
  have hread := message_read hs hbytes
  refine ⟨?_, ?_⟩
  · rintro e rfl
    rw [((reachable_inv hs).threads t).failed e hr] at hread
    rw [hread]
    exact resultText_ne_ok (code_ne_ok e) (cString_fmt_ne_nil e)
  · rintro rfl
    refine ⟨fun e hstored => ?_, fun hstored => ?_⟩
    · rw [hstored] at hread
      rw [hread]
      exact resultText_ne_ok (by decide) (cString_fmt_ne_nil e)
    · rw [hstored] at hread
      rcases hread with ⟨asked, hasked, text, htext, rfl⟩
      exact ⟨asked, hasked, text, htext, rfl⟩

/-- Another thread fails between the two calls. -/
theorem resultText_read_between :
    ∃ s : State Bool, (machine Bool).run init
        [.fail false .invalid, .publish false, .ask false, .fail true (.os ['x']),
          .publish true, .copy false] = some s ∧
      ∃ bytes, (s.thread false).message = some bytes ∧
        resultText (-1) bytes = Utf8.encode (codeText (-1)) ++ Utf8.encode ": ".toList ++
          cString (Utf8.encode RataError.invalid.fmt) := by
  have htest : ((machine Bool).run init
      [.fail false .invalid, .publish false, .ask false, .fail true (.os ['x']),
        .publish true, .copy false]).any
      (fun s => decide ((s.thread false).result = some (.failed .invalid)) &&
        (s.thread false).message.isSome) = true := by decide +kernel
  rcases Lts.Machine.exists_reachable (M := machine Bool) (C := fun _ _ => True) init _ rfl
    (by decide +kernel) htest with ⟨s, hrun, hreach, hend⟩
  rw [Bool.and_eq_true, decide_eq_true_eq, Option.isSome_iff_exists] at hend
  rcases hend with ⟨hresult, bytes, hbytes⟩
  exact ⟨s, hrun, bytes, hbytes, (resultText_read hreach hresult hbytes).1 .invalid rfl⟩

end RataShell.Ffi.LastError
