import Mathlib.Data.List.Count
import RataShell.Session.Phases

/-!
# The exit notification

The pump (on its EOF path) and the watcher (on its polling path) both detect
the end of the child. `alive.swap(false)` decides who notifies.

* **Once** (`exit_notified_once`): the right to notify is a token. It lies
  with the start that has not stored `alive` yet, with `alive` itself, with
  the thread that swapped it out, or with the call made; no step makes a
  second one, and none loses it while `on_exit` stays registered and `Drop`
  does not run.
* **`alive`** (`Lowered`): it stays lowered once a thread has swapped, so a
  thread that has left its loop has left no exit unreported.
-/

namespace RataShell.Session

variable {τ : Type} {advance : τ → List UInt8 → τ × List Event} {s s' : State τ}

/-! ## The token -/

/-- The pump stands between its successful swap and its callback. -/
def Pump.notifying : Pump τ → Nat
  | .notifyExit _ => 1
  | .call c _ => c.isExit.toNat
  | _ => 0

/-- The watcher stands between its successful swap and its callback. -/
def Watcher.notifying : Watcher → Nat
  | .notifyExit _ => 1
  | .call _ => 1
  | _ => 0

/-- How often `on_exit` was called. -/
def State.exitCalls (s : State τ) : Nat := s.calls.countP HostCall.isExit

/-- The tokens: not yet created, in `alive`, in a thread's hands, or spent. -/
def State.tokens (s : State τ) : Nat :=
  (if s.start = .storeAlive then 1 else 0) + s.alive.toNat +
    s.pump.notifying + s.watcher.notifying + s.exitCalls

/-- `on_exit` is registered and `Drop` has not begun. -/
def ExitKept : Lts.StepCond (State τ) Label := fun _ s =>
  s.callbacks.on_exit = true ∧ s.drop = .notStarted

instance (a : Label) (s : State τ) : Decidable (ExitKept a s) :=
  inferInstanceAs (Decidable (s.callbacks.on_exit = true ∧ s.drop = .notStarted))

@[simp] theorem Resume.next_notifying (k : Resume) : (k.next : Pump τ).notifying = 0 := by
  fun_cases Resume.next k <;> rfl

theorem lookup_notifying (s : State τ) (c : HostCall τ) (k : Resume) :
    (s.lookup c k).notifying = if s.callbacks.has c then c.isExit.toNat else 0 := by
  unfold State.lookup
  split
  · rfl
  · simp

/-- The pump makes no token, and loses one only at an empty table. -/
theorem pumpStep_tokens (h : pumpStep advance s = some s') :
    s'.tokens ≤ s.tokens ∧ (s.callbacks.on_exit = true → s'.tokens = s.tokens) := by
  cases pumpStep_move h with
  | swapWon hp ha =>
      -- the token goes from `alive` to the pump
      grind [Pump.notifying, State.tokens, State.exitCalls]
  | notifyExit hp =>
      -- it goes on with the cloned callback, or is lost without one
      grind [Pump.notifying, State.tokens, State.exitCalls, lookup_notifying, Callbacks.has,
        HostCall.isExit]
  | call hp =>
      -- a call of `on_exit` spends it
      grind [Pump.notifying, State.tokens, State.exitCalls]
  | dispatchCall hp he =>
      have hno := Event.hostCall_isExit he
      grind [Pump.notifying, State.tokens, State.exitCalls, lookup_notifying]
  | _ =>
      grind [Pump.notifying, State.tokens, State.exitCalls, lookup_notifying, State.advance,
        Resume.next_notifying, HostCall.isExit]

theorem watcherStep_tokens (h : watcherStep s = some s') :
    s'.tokens ≤ s.tokens ∧ (s.callbacks.on_exit = true → s'.tokens = s.tokens) := by
  cases watcherStep_move h with
  | swapWon hw ha =>
      simp [State.tokens, State.exitCalls, Watcher.notifying, hw, ha]
      omega
  | swapLost hw ha => simp [State.tokens, State.exitCalls, Watcher.notifying, hw, ha]
  | notifyNone hw hon =>
      -- without a callback the token is lost
      simp [State.tokens, State.exitCalls, Watcher.notifying, hw, hon]
  | call hw =>
      simp [State.tokens, State.exitCalls, Watcher.notifying, hw, HostCall.isExit]
      omega
  | _ => simp_all [State.tokens, State.exitCalls, Watcher.notifying]

/-- `start` turns its token into `alive`. -/
theorem startStep_tokens (h : startStep s = some s') (hs : Phases s) :
    s'.tokens = s.tokens := by
  have halive := hs.alive
  have hpump := hs.pump
  have hwatcher := hs.watcher
  cases startStep_move h <;>
    simp_all [State.tokens, State.exitCalls, Pump.notifying, Watcher.notifying]

/-- `Drop` loses the token that lies in `alive`. -/
theorem dropStep_tokens (h : dropStep s = some s') :
    s'.tokens ≤ s.tokens ∧ s.drop ≠ .notStarted := by
  refine ⟨?_, (dropStep_drop h).1⟩
  cases dropStep_move h with
  -- `alive` is lowered whether it holds the token or not
  | storeAlive => simp [State.tokens, State.exitCalls]
  | _ => exact le_rfl

/-- No step makes a token, and none loses one while `on_exit` is kept. -/
theorem step_tokens {a : Label} (h : step advance a s = some s') (hs : Phases s) :
    s'.tokens ≤ s.tokens ∧ (ExitKept a s → s'.tokens = s.tokens) := by
  cases a with
  | start =>
      have heq := startStep_tokens h hs
      exact ⟨heq.le, fun _ => heq⟩
  | pump =>
      rcases pumpStep_tokens h with ⟨hle, heq⟩
      exact ⟨hle, fun hkept => heq hkept.1⟩
  | watcher =>
      rcases watcherStep_tokens h with ⟨hle, heq⟩
      exact ⟨hle, fun hkept => heq hkept.1⟩
  | drop =>
      rcases dropStep_tokens h with ⟨hle, hon⟩
      exact ⟨hle, fun hkept => absurd hkept.2 hon⟩
  | reader n =>
      rcases readerStep_frame h with ⟨_, _, _, _, rfl⟩
      exact ⟨le_rfl, fun _ => rfl⟩
  | writer =>
      rcases writerStep_frame h with ⟨_, _, _, rfl⟩
      exact ⟨le_rfl, fun _ => rfl⟩
  | beginDrop on =>
      rcases beginDropStep_frame h with ⟨-, -, -, rfl⟩
      exact ⟨le_rfl, fun _ => rfl⟩
  | _ =>
      rcases outside_frame rfl h with ⟨_, _, _, _, _, _, rfl⟩
      exact ⟨le_rfl, fun _ => rfl⟩

theorem init_tokens (h : Init s) : s.tokens = 1 := by
  rcases h with ⟨term, title, cbs, code, rfl⟩
  rfl

theorem tokens_le_one {C : Lts.StepCond (State τ) Label}
    (h : (machine advance).Reachable C s) : s.tokens ≤ 1 := by
  refine reachable_invariant (fun s => s.tokens ≤ 1) (fun s hs => (init_tokens hs).le) ?_ h
  intro a s s' _ hstep hph hle
  exact (step_tokens hstep hph).1.trans hle

theorem tokens_eq_one (h : (machine advance).Reachable ExitKept s) : s.tokens = 1 := by
  refine reachable_invariant (fun s => s.tokens = 1) (fun s hs => init_tokens hs) ?_ h
  intro a s s' hkept hstep hph heq
  exact ((step_tokens hstep hph).2 hkept).trans heq

/-! ## Both loops end with the exit reported -/

/-- The pump has swapped on its exit path, or is done. -/
def Pump.afterSwap : Pump τ → Bool
  | .notifyExit _ | .call _ .exited | .inCall .exited | .done => true
  | _ => false

/-- The watcher has swapped, or is done. -/
def Watcher.afterSwap : Watcher → Bool
  | .notifyExit _ | .call _ | .inCall | .done => true
  | .unspawned | .check | .poll | .storeCode _ | .swapAlive _ | .nap _ => false

@[simp] theorem Resume.next_afterSwap (k : Resume) :
    (k.next : Pump τ).afterSwap = decide (k = .exited) := by
  fun_cases Resume.next k <;> rfl

@[simp] theorem lookup_afterSwap (s : State τ) (c : HostCall τ) (k : Resume) :
    (s.lookup c k).afterSwap = decide (k = .exited) := by
  unfold State.lookup
  split
  · cases k <;> rfl
  · simp

/-- A thread past its swap leaves `alive` lowered as long as `Drop` has not
begun. -/
def Lowered (s : State τ) : Prop :=
  s.drop = .notStarted → s.pump.afterSwap = true ∨ s.watcher.afterSwap = true → s.alive = false

theorem pumpStep_lowered (h : pumpStep advance s = some s') (hs : Lowered s) : Lowered s' := by
  cases pumpStep_move h <;>
    grind [Lowered, Pump.afterSwap, lookup_afterSwap, Resume.next_afterSwap, State.sendersGone,
      State.advance]

theorem watcherStep_lowered (h : watcherStep s = some s') (hs : Lowered s) : Lowered s' := by
  cases watcherStep_move h with
  | swapWon | swapLost => exact fun _ _ => rfl
  | notifyExit hw | notifyNone hw | call hw | inCall hw =>
      intro hoff _
      exact hs hoff (.inr (by rw [hw]; rfl))
  | checkDown _ ha | napDown _ ha => exact fun _ _ => ha
  | _ =>
      intro hoff hafter
      exact hs hoff (.inl (hafter.resolve_right (by simp [Watcher.afterSwap])))

theorem step_lowered {a : Label} (h : step advance a s = some s') (hph : Phases s)
    (hs : Lowered s) : Lowered s' := by
  cases a with
  | start =>
      have hpump := hph.pump
      have hwatcher := hph.watcher
      cases startStep_move h <;> simp_all [Lowered, Pump.afterSwap, Watcher.afterSwap]
  | pump => exact pumpStep_lowered h hs
  | watcher => exact watcherStep_lowered h hs
  | drop => exact fun hoff => absurd hoff (dropStep_drop h).2.2
  | reader n =>
      rcases readerStep_frame h with ⟨_, _, _, _, rfl⟩
      exact hs
  | writer =>
      rcases writerStep_frame h with ⟨_, _, _, rfl⟩
      exact hs
  | beginDrop on =>
      rcases beginDropStep_frame h with ⟨-, -, -, rfl⟩
      intro hoff
      cases hoff
  | _ =>
      rcases outside_frame rfl h with ⟨_, _, _, _, _, _, rfl⟩
      exact hs

theorem reachable_lowered {C : Lts.StepCond (State τ) Label}
    (h : (machine advance).Reachable C s) : Lowered s := by
  refine reachable_invariant Lowered ?_ (fun a s s' _ => step_lowered) h
  rintro s ⟨term, title, cbs, code, rfl⟩
  simp [Lowered, init, Pump.afterSwap, Watcher.afterSwap]

/-- `on_exit` is called at most once. If it stays registered and `Drop` does
not run then, once `start` has stored `alive`, a lowered `alive` with no thread
between its swap and its callback means that it was called, and a thread that
has ended means that `alive` is lowered. -/
theorem exit_notified_once (advance : τ → List UInt8 → τ × List Event) :
    (∀ s, (machine advance).Reachable (fun _ _ => True) s → s.exitCalls ≤ 1) ∧
    (∀ s, (machine advance).Reachable ExitKept s → s.start ≠ .storeAlive →
      s.alive = false → s.pump.notifying = 0 → s.watcher.notifying = 0 → s.exitCalls = 1) ∧
    (∀ s, (machine advance).Reachable ExitKept s → s.drop = .notStarted →
      s.pump = .done ∨ s.watcher = .done → s.alive = false) := by
  refine ⟨fun s h => ?_, fun s h hst halive hpump hwatcher => ?_, fun s h hoff hdone => ?_⟩
  · -- a call is a token spent
    have hle := tokens_le_one h
    unfold State.tokens at hle
    omega
  · -- the one token lies nowhere else
    have heq := tokens_eq_one h
    simpa [State.tokens, hst, halive, hpump, hwatcher] using heq
  · apply reachable_lowered h hoff
    rcases hdone with hp | hw
    · simp [hp, Pump.afterSwap]
    · simp [hw, Watcher.afterSwap]

/-- A host that registered `on_exit` only. -/
def exitOnly : State Unit := init () "" ⟨false, true, false, false, false⟩ 0

/-- The child ends with 7, the watcher reports it, and the pump then finds the
end of the output. -/
def exitThenEof : List Label :=
  List.flatten [List.replicate 5 .start, [.childExit 7], List.replicate 7 .watcher,
    [.closeOutput, .reader 0, .reader 0], List.replicate 6 .pump]

theorem exit_notified_once_exitThenEof : ∃ s,
    (machine blank).run exitOnly exitThenEof = some s ∧ s.alive = false ∧ s.exitCalls = 1 := by
  have hmeets : (machine blank).Meets ExitKept exitOnly exitThenEof := by
    decide +kernel
  have htest : ((machine blank).run exitOnly exitThenEof).any (fun s =>
      decide (s.start = .returned ∧ s.drop = .notStarted ∧ s.pump = .done ∧
        s.watcher = .done)) = true := by
    decide +kernel
  obtain ⟨s, hrun, hreach, hs⟩ :=
    Lts.Machine.exists_reachable exitOnly exitThenEof (init_Init _ _ _ _) hmeets htest
  rcases of_decide_eq_true hs with ⟨hst, hoff, hp, hw⟩
  rcases exit_notified_once blank with ⟨-, honce, hlowered⟩
  have halive : s.alive = false := hlowered s hreach hoff (.inl hp)
  exact ⟨s, hrun, halive,
    honce s hreach (by simp [hst]) halive (by simp [hp, Pump.notifying])
      (by simp [hw, Watcher.notifying])⟩

end RataShell.Session
