import RataShell.Session.Exit

/-!
# The exit code

Both threads store the code they read before they swap `alive`, and the one
that wins the swap passes its code to `on_exit`. The watcher reads only a
signalled process handle; the pump reads 0 before that.

* `CodeInv`: the codes in hand are the child's, but for what the pump reads
  once `Drop` has muted the session.
* `exit_code_ok`: the reported and the cached code are the child's where the
  pump never reads early; `exit_code_lost` is the run where it does.
-/

namespace RataShell.Session

variable {τ : Type} {advance : τ → List UInt8 → τ × List Event} {s s' : State τ}

/-! ## The condition -/

/-- The child's exit code is `c`: its own, or the 1 of `TerminateProcess`. -/
def EndsWith (c : UInt32) : Lts.StepCond (State τ) Label := fun a _ =>
  match a with
  | .childExit code => code = c
  | .childKilled => c = 1
  | _ => True

instance (c : UInt32) (a : Label) (s : State τ) : Decidable (EndsWith c a s) :=
  match a with
  | .childExit code => decEq code c
  | .childKilled => decEq c 1
  | .start | .reader _ | .pump | .watcher | .writer | .drop | .beginDrop _ => isTrue trivial
  | .shellWrite _ | .closeOutput | .terminate | .sendBytes _ => isTrue trivial
  | .setCallbacks _ | .setClipboardCallback _ => isTrue trivial

/-- `Drop` has lowered `alive`: what the pump reads now reaches nobody. -/
def State.Muted (s : State τ) : Prop := s.drop ≠ .notStarted ∧ s.alive = false

instance (s : State τ) : Decidable s.Muted :=
  inferInstanceAs (Decidable (s.drop ≠ .notStarted ∧ s.alive = false))

/-- The pump reads the exit status once the process handle is signalled, or
the code is the 0 that it assumes before, or `Drop` has muted the session. -/
def ReadAfterExit (c : UInt32) : Lts.StepCond (State τ) Label := fun a s =>
  a = .pump → s.pump = .exitCode → s.child ≠ none ∨ c.toInt32 = 0 ∨ s.Muted

instance [DecidableEq τ] (c : UInt32) (a : Label) (s : State τ) :
    Decidable (ReadAfterExit c a s) :=
  inferInstanceAs (Decidable
    (a = .pump → s.pump = .exitCode → s.child ≠ none ∨ c.toInt32 = 0 ∨ s.Muted))

/-- `on_exit` gets the child's code, and once both threads have ended the
cached code is the child's as long as the session lives. -/
def ExitCodeOk (c : UInt32) (s : State τ) : Prop :=
  (∀ code, HostCall.exit code ∈ s.calls → code = c.toInt32) ∧
    (s.drop = .notStarted → s.pump = .done → s.watcher = .done → s.exit_code = c.toInt32)

/-! ## The codes in flight -/

/-- The code a call of `on_exit` passes. -/
def HostCall.code : HostCall τ → Option Int32
  | .exit code => some code
  | _ => none

/-- The exit code the pump has read and not yet swapped for. -/
def Pump.read : Pump τ → Option Int32
  | .storeCode code | .swapAlive code => some code
  | _ => none

/-- The exit code the pump is about to report. -/
def Pump.code : Pump τ → Option Int32
  | .notifyExit code => some code
  | .call c _ => c.code
  | _ => none

/-- The pump has stored an exit code. -/
def Pump.stored : Pump τ → Bool
  | .swapAlive _ | .notifyExit _ | .call _ .exited | .inCall .exited | .done => true
  | _ => false

/-- The exit code the watcher has in hand. -/
def Watcher.code : Watcher → Option Int32
  | .storeCode code | .swapAlive code | .notifyExit code | .call code => some code
  | _ => none

/-- What the runs that meet `EndsWith` and `ReadAfterExit` keep. -/
structure CodeInv (c : UInt32) (s : State τ) : Prop where
  child : ∀ code, s.child = some code → code = c
  read : ∀ code, s.pump.read = some code → code = c.toInt32 ∨ s.Muted
  pump : ∀ code, s.pump.code = some code → code = c.toInt32
  watcher : ∀ code, s.watcher.code = some code → code = c.toInt32
  calls : ∀ code, HostCall.exit code ∈ s.calls → code = c.toInt32
  stored : s.drop = .notStarted → s.pump.stored = true → s.exit_code = c.toInt32

theorem Event.hostCall_code {e : Event} {c : HostCall τ} (h : e.hostCall = some c) :
    c.code = none := by
  cases e <;> simp [Event.hostCall] at h <;> subst h <;> rfl

@[simp] theorem Resume.next_code (k : Resume) : (k.next : Pump τ).code = none := by
  fun_cases Resume.next k <;> rfl

@[simp] theorem Resume.next_read (k : Resume) : (k.next : Pump τ).read = none := by
  fun_cases Resume.next k <;> rfl

@[simp] theorem lookup_read (s : State τ) (c : HostCall τ) (k : Resume) :
    (s.lookup c k).read = none := by
  unfold State.lookup
  split
  · rfl
  · simp

theorem lookup_code (s : State τ) (c : HostCall τ) (k : Resume) :
    (s.lookup c k).code = if s.callbacks.has c then c.code else none := by
  unfold State.lookup
  split
  · rfl
  · simp

@[simp] theorem Resume.next_stored (k : Resume) :
    (k.next : Pump τ).stored = decide (k = .exited) := by
  fun_cases Resume.next k <;> rfl

@[simp] theorem lookup_stored (s : State τ) (c : HostCall τ) (k : Resume) :
    (s.lookup c k).stored = decide (k = .exited) := by
  unfold State.lookup
  split
  · cases k <;> rfl
  · simp

theorem tryExitCode_eq {c : UInt32} {code : Int32} (hchild : ∀ code, s.child = some code → code = c)
    (h : s.tryExitCode = some code) : code = c.toInt32 := by
  unfold State.tryExitCode at h
  rcases Option.map_eq_some_iff.1 h with ⟨x, hx, rfl⟩
  rw [hchild x hx]

theorem calls_append {calls : List (HostCall τ)} {x : HostCall τ} {d : Int32}
    (hcalls : ∀ code, HostCall.exit code ∈ calls → code = d)
    (hx : ∀ code, x.code = some code → code = d) :
    ∀ code, HostCall.exit code ∈ calls ++ [x] → code = d := by
  intro code hmem
  rcases List.mem_append.1 hmem with hold | hnew
  · exact hcalls code hold
  · apply hx
    rw [← List.mem_singleton.1 hnew]
    rfl

variable {c : UInt32}

/-! ## The steps -/

theorem pumpStep_codeInv (h : pumpStep advance s = some s') (hread : ReadAfterExit c .pump s)
    (hs : CodeInv c s) : CodeInv c s' := by
  rcases hs with ⟨hchild, hin, hpump, hwatcher, hcalls, hstored⟩
  cases pumpStep_move h with
  | exitCode hp =>
      -- the code read is the child's, or the 0 of a child that ends with 0,
      -- or nobody is told
      refine ⟨hchild, ?_, by simp [Pump.code], hwatcher, hcalls, by simp [Pump.stored]⟩
      intro code hcode
      cases htry : s.tryExitCode with
      | some x =>
          have hx : code = x := by simpa [Pump.read, htry] using hcode.symm
          rw [hx]
          exact .inl (tryExitCode_eq hchild htry)
      | none =>
          have hnone : s.child = none := by simpa [State.tryExitCode] using htry
          have hzero : code = 0 := by simpa [Pump.read, htry] using hcode.symm
          rcases hread rfl hp with hsome | hc | hmuted
          · exact absurd hnone hsome
          · exact .inl (by rw [hzero, hc])
          · exact .inr hmuted
  | @storeCode code hp =>
      have hcode : code = c.toInt32 ∨ s.Muted := hin code (by rw [hp]; rfl)
      refine ⟨hchild, ?_, by simp [Pump.code], hwatcher, hcalls, ?_⟩
      · intro x hx
        cases hx
        exact hcode
      · intro hoff hst
        exact hcode.resolve_right fun hmuted => hmuted.1 hoff
  | @swapWon code hp ha =>
      have hcode : code = c.toInt32 ∨ s.Muted := hin code (by rw [hp]; rfl)
      refine ⟨hchild, by simp [Pump.read], ?_, hwatcher, hcalls,
        fun hoff _ => hstored hoff (by rw [hp]; rfl)⟩
      intro x hx
      cases hx
      -- the swap found `alive` up, so `Drop` has not muted the session
      exact hcode.resolve_right fun hmuted => by simp [hmuted.2] at ha
  | swapLost hp ha =>
      exact ⟨hchild, by simp [Pump.read], by simp [Pump.code], hwatcher, hcalls,
        fun hoff _ => hstored hoff (by rw [hp]; rfl)⟩
  | notifyExit hp =>
      refine ⟨hchild, by simp, ?_, hwatcher, hcalls, fun hoff _ => hstored hoff (by rw [hp]; rfl)⟩
      intro code hcode
      rw [lookup_code] at hcode
      split at hcode
      · exact hpump code (by rw [hp]; exact hcode)
      · cases hcode
  | @call x k hp =>
      have hx : ∀ code, x.code = some code → code = c.toInt32 := by
        intro code hcode
        exact hpump code (by rw [hp]; exact hcode)
      refine ⟨hchild, by simp [Pump.read], by simp [Pump.code], hwatcher,
        calls_append hcalls hx, ?_⟩
      intro hoff hst
      apply hstored hoff
      rw [hp]
      cases k with
      | exited => rfl
      | dispatch | rendered | finalRendered => cases hst
  | inCall hp hfree =>
      refine ⟨hchild, by simp, by simp, hwatcher, hcalls, fun hoff hst => hstored hoff ?_⟩
      have hk := of_decide_eq_true (Resume.next_stored _ ▸ hst)
      rw [hp, hk]
      rfl
  | disconnected hp hc hgone =>
      refine ⟨hchild, by simp [Pump.read], by simp [Pump.code], hwatcher, hcalls, ?_⟩
      intro hoff _
      have hdrop : s.drop = .notStarted := hoff
      simp [State.sendersGone, hdrop] at hgone
  | dispatchCall hp he =>
      refine ⟨hchild, by simp, ?_, hwatcher, hcalls, by simp⟩
      simp [lookup_code, Event.hostCall_code he]
  | render hp | eofRender hp =>
      refine ⟨hchild, by simp, ?_, hwatcher, hcalls, by simp⟩
      simp [lookup_code, HostCall.code]
  | _ =>
      exact ⟨hchild, by simp [Pump.read], by simp [Pump.code], hwatcher, hcalls,
        by simp [Pump.stored]⟩

/-- `Drop` only lowers `alive`. -/
theorem dropStep_alive (h : dropStep s = some s') : s'.alive = s.alive ∨ s'.alive = false := by
  cases dropStep_move h <;> simp

theorem watcherStep_codeInv (h : watcherStep s = some s') (hs : CodeInv c s) :
    CodeInv c s' := by
  rcases hs with ⟨hchild, hin, hpump, hwatcher, hcalls, hstored⟩
  have hmuted : ∀ code, s.pump.read = some code →
      code = c.toInt32 ∨ s.drop ≠ .notStarted ∧ false = false := by
    intro code hcode
    exact (hin code hcode).imp_right fun hm => ⟨hm.1, rfl⟩
  cases watcherStep_move h with
  | pollEnded hw htry =>
      have hcode := tryExitCode_eq hchild htry
      exact ⟨hchild, hin, hpump, by simp [Watcher.code, hcode], hcalls, hstored⟩
  | @storeCode code hw =>
      have hcode : code = c.toInt32 := hwatcher code (by rw [hw]; rfl)
      exact ⟨hchild, hin, hpump, by simp [Watcher.code, hcode], hcalls, fun _ _ => hcode⟩
  | swapWon hw ha =>
      refine ⟨hchild, hmuted, hpump, ?_, hcalls, hstored⟩
      intro x hx
      exact hwatcher x (by rw [hw]; exact hx)
  | swapLost hw ha =>
      exact ⟨hchild, hmuted, hpump, by simp [Watcher.code], hcalls, hstored⟩
  | notifyExit hw hon =>
      refine ⟨hchild, hin, hpump, ?_, hcalls, hstored⟩
      intro x hx
      exact hwatcher x (by rw [hw]; exact hx)
  | @call code hw =>
      have hcode : code = c.toInt32 := hwatcher code (by rw [hw]; rfl)
      have hx : ∀ x, (HostCall.exit code : HostCall τ).code = some x → x = c.toInt32 := by
        simp [HostCall.code, hcode]
      exact ⟨hchild, hin, hpump, by simp [Watcher.code], calls_append hcalls hx, hstored⟩
  | _ => exact ⟨hchild, hin, hpump, by simp [Watcher.code], hcalls, hstored⟩

theorem step_codeInv {a : Label} (h : step advance a s = some s') (hends : EndsWith c a s)
    (hread : ReadAfterExit c a s) (hph : Phases s) (hs : CodeInv c s) : CodeInv c s' := by
  cases a with
  | start =>
      have hoff := startStep_off h hph
      rcases hs with ⟨hchild, hin, hpump, hwatcher, hcalls, hstored⟩
      rcases startStep_threads h with ⟨hp, hw⟩
      rcases startStep_frame h with ⟨_, pump, _, watcher, _, _, rfl⟩
      have hcode : ∀ code, s.pump.read = some code → code = c.toInt32 := by
        intro code hcode
        exact (hin code hcode).resolve_right fun hmuted => hmuted.1 hoff
      refine ⟨hchild, ?_, ?_, ?_, hcalls, ?_⟩
      · rcases hp with rfl | rfl
        · exact fun code hx => .inl (hcode code hx)
        · simp [Pump.read]
      · rcases hp with rfl | rfl
        · exact hpump
        · simp [Pump.code]
      · rcases hw with rfl | rfl
        · exact hwatcher
        · simp [Watcher.code]
      · rcases hp with rfl | rfl
        · exact hstored
        · simp [Pump.stored]
  | pump => exact pumpStep_codeInv h hread hs
  | watcher => exact watcherStep_codeInv h hs
  | drop =>
      rcases dropStep_drop h with ⟨hne, -, hne'⟩
      have halive := dropStep_alive h
      rcases dropStep_frame h with ⟨_, _, _, _, _, _, _, _, rfl⟩
      refine ⟨hs.child, ?_, hs.pump, hs.watcher, hs.calls, fun hoff => absurd hoff hne'⟩
      intro code hcode
      rcases hs.read code hcode with hc | hmuted
      · exact .inl hc
      · refine .inr ⟨hne', ?_⟩
        rcases halive with ha | ha
        · exact ha.trans hmuted.2
        · exact ha
  | reader n =>
      rcases readerStep_frame h with ⟨_, _, _, _, rfl⟩
      exact ⟨hs.child, hs.read, hs.pump, hs.watcher, hs.calls, hs.stored⟩
  | writer =>
      rcases writerStep_frame h with ⟨_, _, _, rfl⟩
      exact ⟨hs.child, hs.read, hs.pump, hs.watcher, hs.calls, hs.stored⟩
  | beginDrop on =>
      -- `alive` may still be up, so the session is not muted yet
      rcases beginDropStep_frame h with ⟨-, hoff, -, rfl⟩
      refine ⟨hs.child, ?_, hs.pump, hs.watcher, hs.calls, by simp⟩
      intro code hcode
      exact .inl ((hs.read code hcode).resolve_right fun hmuted => hmuted.1 hoff)
  | childExit code =>
      have hcode : code = c := hends
      rcases childExitStep_eq h with ⟨-, rfl⟩
      exact ⟨by simp [hcode], hs.read, hs.pump, hs.watcher, hs.calls, hs.stored⟩
  | childKilled =>
      -- `terminate(1)`
      have hone : c = 1 := hends
      cases outside_move rfl h with
      | childKilled => exact ⟨by simp [hone], hs.read, hs.pump, hs.watcher, hs.calls, hs.stored⟩
  | _ =>
      have hchild := outside_child rfl h (by simp) (by simp)
      rcases outside_frame rfl h with ⟨_, _, child, _, _, _, rfl⟩
      exact ⟨by rw [hchild]; exact hs.child, hs.read, hs.pump, hs.watcher, hs.calls, hs.stored⟩

theorem init_codeInv (h : Init s) : CodeInv c s := by
  rcases h with ⟨term, title, cbs, code, rfl⟩
  constructor <;> simp [init, Pump.read, Pump.code, Watcher.code, Pump.stored]

/-- If the pump never reads the exit status before the process handle is
signalled (or the code is the 0 it assumes then), `on_exit` and the cached code
get the child's code. -/
theorem exit_code_ok (advance : τ → List UInt8 → τ × List Event) (c : UInt32) {s : State τ}
    (h : (machine advance).Reachable (fun a s => EndsWith c a s ∧ ReadAfterExit c a s) s) :
    ExitCodeOk c s := by
  have hinv : CodeInv c s := by
    refine reachable_invariant (CodeInv c) (fun s => init_codeInv) ?_ h
    rintro a s s' ⟨hends, hread⟩ hstep hph hs
    exact step_codeInv hstep hends hread hph hs
  refine ⟨hinv.calls, fun hoff hp _ => hinv.stored hoff ?_⟩
  rw [hp]
  rfl

theorem exit_code_ok_exitThenEof : ∃ s, (machine blank).run exitOnly exitThenEof = some s ∧
    s.calls = [.exit 7] ∧ ExitCodeOk 7 s := by
  have hmeets : (machine blank).Meets (fun a s => EndsWith 7 a s ∧ ReadAfterExit 7 a s)
      exitOnly exitThenEof := by
    decide +kernel
  have htest : ((machine blank).run exitOnly exitThenEof).any
      (fun s => decide (s.calls = [.exit 7])) = true := by
    decide +kernel
  obtain ⟨s, hrun, hreach, hs⟩ :=
    Lts.Machine.exists_reachable exitOnly exitThenEof (init_Init _ _ _ _) hmeets htest
  exact ⟨s, hrun, of_decide_eq_true hs, exit_code_ok blank 7 hreach⟩

/-- The output ends before the process handle is signalled: the pump reads no
code, reports 0, and the child then ends with 7. -/
def eofThenExit : List Label :=
  List.flatten [List.replicate 5 .start, [.closeOutput, .reader 0, .reader 0],
    List.replicate 9 .pump, [.watcher, .childExit 7]]

theorem exit_code_lost : ¬ ∀ s, (machine blank).Reachable (EndsWith 7) s → ExitCodeOk 7 s := by
  intro hall
  have hmeets : (machine blank).Meets (EndsWith 7) exitOnly eofThenExit := by
    decide +kernel
  have htest : ((machine blank).run exitOnly eofThenExit).any
      (fun s => decide (s.calls = [.exit 0] ∧ s.child = some 7)) = true := by
    decide +kernel
  obtain ⟨s, -, hreach, hs⟩ :=
    Lts.Machine.exists_reachable exitOnly eofThenExit (init_Init _ _ _ _) hmeets htest
  have hcalls : s.calls = [.exit 0] := (of_decide_eq_true hs).1
  have hzero : (0 : Int32) = UInt32.toInt32 7 := (hall s hreach).1 0 (by simp [hcalls])
  exact absurd hzero (by decide)

end RataShell.Session
