import Mathlib.Tactic.NormNum
import RataShell.Session.Phases

/-!
# What `Drop` leaves behind

`Drop for Session` clears the callback table, then joins every thread but the
one it runs on.

* `Joined`: what the progress of `Drop` says about the table, the pseudo
  console and the joined threads.
* `no_callback_after_drop`: once `Drop` has returned no callback is entered
  any more, and if it ran on a host thread none is being executed.
-/

namespace RataShell.Session

variable {τ : Type} {advance : τ → List UInt8 → τ × List Event} {s s' : State τ}

/-! ## The progress of Drop -/

/-- How far `Drop` has come. -/
def Drop.rank : Drop → Nat
  | .notStarted => 0
  | .storeAlive => 1
  | .clearCallbacks => 2
  | .terminate => 3
  | .trySendEof => 4
  | .sendSentinel => 5
  | .joinWriter => 6
  | .takePty => 7
  | .joinPump => 8
  | .joinWatcher => 9
  | .joinReader => 10
  | .returned => 11

/-- The pump is about to enter a callback it has cloned. -/
def Pump.holdsCallback : Pump τ → Bool
  | .call _ _ => true
  | _ => false

/-- The watcher is about to enter the callback it has cloned. -/
def Watcher.holdsCallback : Watcher → Bool
  | .call _ => true
  | _ => false

/-- The pump or the watcher executes a callback. -/
def State.InCallback (s : State τ) : Prop := (∃ k, s.pump = .inCall k) ∨ s.watcher = .inCall

/-- What `Drop` has done so far. -/
structure Joined (s : State τ) : Prop where
  alive : 2 ≤ s.drop.rank → s.alive = false
  table : 3 ≤ s.drop.rank → s.callbacks = .default
  pty : 8 ≤ s.drop.rank → s.pty = false
  pump : 9 ≤ s.drop.rank → s.dropper ≠ some .pump → s.pump = .done
  watcher : 10 ≤ s.drop.rank → s.dropper ≠ some .watcher → s.watcher = .done
  reader : 11 ≤ s.drop.rank → s.reader = .done
  noCall : 11 ≤ s.drop.rank → s.pump.holdsCallback = false ∧ s.watcher.holdsCallback = false

theorem init_joined (h : Init s) : Joined s := by
  rcases h with ⟨term, title, cbs, code, rfl⟩
  constructor <;> simp [init, Drop.rank]

theorem Resume.next_holdsCallback (k : Resume) : (k.next : Pump τ).holdsCallback = false := by
  fun_cases Resume.next k <;> rfl

theorem lookup_holdsCallback (s : State τ) (c : HostCall τ) (k : Resume) :
    (s.lookup c k).holdsCallback = s.callbacks.has c := by
  unfold State.lookup
  split
  · rename_i hc
    simp [Pump.holdsCallback, hc]
  · rename_i hc
    simpa [k.next_holdsCallback] using hc

/-- The pump lowers `alive`, and takes callbacks from the table only. -/
theorem pumpStep_quiet (h : pumpStep advance s = some s') :
    (s.alive = false → s'.alive = false) ∧
      (s.callbacks = .default → s'.pump.holdsCallback = false) ∧ s.pump ≠ .done := by
  cases pumpStep_move h with
  | advance hp => rcases hp with hp | hp <;> simp_all [Pump.holdsCallback, State.advance]
  | dispatchCall hp _ | render hp | eofRender hp | notifyExit hp =>
      refine ⟨id, fun hd => ?_, by simp [hp]⟩
      rw [lookup_holdsCallback, hd, Callbacks.default_has]
  | inCall hp _ => exact ⟨id, fun _ => Resume.next_holdsCallback _, by simp [hp]⟩
  | _ => simp_all [Pump.holdsCallback]

theorem watcherStep_quiet (h : watcherStep s = some s') :
    (s.alive = false → s'.alive = false) ∧
      (s.callbacks = .default → s'.watcher.holdsCallback = false) ∧ s.watcher ≠ .done := by
  cases watcherStep_move h with
  | notifyExit hw hon =>
      refine ⟨id, fun hd => ?_, by simp [hw]⟩
      simp [hd, Callbacks.default] at hon
  | _ => simp_all [Watcher.holdsCallback]

/-- At the end of `Drop` the pump and the watcher are done, or in the callback
that runs it. -/
theorem Joined.noCall_of_joined (hs : Joined s) (hph : Phases s) (hd : s.drop = .joinReader) :
    s.pump.holdsCallback = false ∧ s.watcher.holdsCallback = false := by
  have hlive : s.drop ≠ .returned := by simp [hd]
  constructor
  · by_cases hon : s.dropper = some .pump
    · rcases hph.onPump hon hlive with ⟨k, hk⟩
      simp [hk, Pump.holdsCallback]
    · simp [hs.pump (by simp [hd, Drop.rank]) hon, Pump.holdsCallback]
  · by_cases hon : s.dropper = some .watcher
    · simp [hph.onWatcher hon hlive, Watcher.holdsCallback]
    · simp [hs.watcher (by simp [hd, Drop.rank]) hon, Watcher.holdsCallback]

theorem dropStep_joined (h : dropStep s = some s') (hph : Phases s) (hs : Joined s) :
    Joined s' := by
  have hno := hs.noCall_of_joined hph
  rcases hs with ⟨halive, htable, hpty, hpump, hwatcher, hreader, -⟩
  cases dropStep_move h <;> constructor <;> simp_all [Drop.rank]

/-- What `Drop` writes besides its own progress: the channel only at
`trySendEof`, the writer's only by appending. -/
theorem dropStep_writes (h : dropStep s = some s') :
    (s.pty = false → s'.pty = false) ∧ s'.drop.rank = s.drop.rank + 1 ∧
      (s.drop ≠ .trySendEof → s'.chan = s.chan) := by
  cases dropStep_move h <;> simp_all [Drop.rank]

theorem step_joined {a : Label} (h : step advance a s = some s') (hph : Phases s)
    (hs : Joined s) : Joined s' := by
  cases a with
  | start =>
      have hoff := startStep_off h hph
      rcases startStep_frame h with ⟨_, _, _, _, _, _, rfl⟩
      constructor <;> simp [hoff, Drop.rank]
  | pump =>
      -- a thread that is joined takes no step; the others leave Drop alone
      rcases pumpStep_quiet h with ⟨halive, htable, hne⟩
      rcases pumpStep_frame h with ⟨_, _, _, _, _, _, _, _, _, _, _, _, _, _, rfl⟩
      exact ⟨fun hr => halive (hs.alive hr), hs.table, hs.pty,
        fun hr hon => absurd (hs.pump hr hon) hne, hs.watcher, hs.reader,
        fun hr => ⟨htable (hs.table (le_trans (by norm_num) hr)), (hs.noCall hr).2⟩⟩
  | watcher =>
      rcases watcherStep_quiet h with ⟨halive, htable, hne⟩
      rcases watcherStep_frame h with ⟨_, _, _, _, rfl⟩
      exact ⟨fun hr => halive (hs.alive hr), hs.table, hs.pty, hs.pump,
        fun hr hon => absurd (hs.watcher hr hon) hne, hs.reader,
        fun hr => ⟨(hs.noCall hr).1, htable (hs.table (le_trans (by norm_num) hr))⟩⟩
  | reader n =>
      have hne : s.reader ≠ .done := by
        intro hdone
        simp [step, readerStep, hdone] at h
      rcases readerStep_frame h with ⟨_, _, _, _, rfl⟩
      exact ⟨hs.alive, hs.table, hs.pty, hs.pump, hs.watcher,
        fun hr => absurd (hs.reader hr) hne, hs.noCall⟩
  | writer =>
      rcases writerStep_frame h with ⟨_, _, _, rfl⟩
      exact ⟨hs.alive, hs.table, hs.pty, hs.pump, hs.watcher, hs.reader, hs.noCall⟩
  | drop => exact dropStep_joined h hph hs
  | beginDrop on =>
      rcases beginDropStep_frame h with ⟨-, -, -, rfl⟩
      constructor <;> simp [Drop.rank]
  | _ =>
      have hcb := outside_callbacks rfl h
      rcases outside_frame rfl h with ⟨_, _, _, _, _, _, rfl⟩
      refine ⟨hs.alive, fun hr => ?_, hs.pty, hs.pump, hs.watcher, hs.reader, hs.noCall⟩
      rcases hcb with heq | hoff
      · exact heq.trans (hs.table hr)
      · rw [hoff] at hr
        simp [Drop.rank] at hr

theorem reachable_joined {C : Lts.StepCond (State τ) Label}
    (h : (machine advance).Reachable C s) : Joined s :=
  reachable_invariant Joined (fun _ => init_joined) (fun _ _ _ _ => step_joined) h

/-! ## No callback after Drop -/

theorem pumpStep_calls (h : pumpStep advance s = some s') (hno : s.pump.holdsCallback = false) :
    s'.calls = s.calls := by
  cases pumpStep_move h with
  | call hp => simp [hp, Pump.holdsCallback] at hno
  | _ => rfl

theorem watcherStep_calls (h : watcherStep s = some s') (hno : s.watcher.holdsCallback = false) :
    s'.calls = s.calls := by
  cases watcherStep_move h with
  | call hw => simp [hw, Watcher.holdsCallback] at hno
  | _ => rfl

/-- After `Drop` a step enters no callback. -/
theorem step_after_drop {a : Label} (h : step advance a s = some s') (hph : Phases s)
    (hs : Joined s) (hret : s.drop = .returned) : s'.drop = .returned ∧ s'.calls = s.calls := by
  have hno := hs.noCall (by simp [hret, Drop.rank])
  cases a with
  | start =>
      have hst : s.start = .returned := hph.drop (by simp [hret])
      simp [step, startStep, hst] at h
  | pump =>
      have hcalls := pumpStep_calls h hno.1
      rcases pumpStep_frame h with ⟨_, _, _, _, _, _, _, _, _, _, _, _, _, _, rfl⟩
      exact ⟨hret, hcalls⟩
  | watcher =>
      have hcalls := watcherStep_calls h hno.2
      rcases watcherStep_frame h with ⟨_, _, _, _, rfl⟩
      exact ⟨hret, hcalls⟩
  | reader n =>
      rcases readerStep_frame h with ⟨_, _, _, _, rfl⟩
      exact ⟨hret, rfl⟩
  | writer =>
      rcases writerStep_frame h with ⟨_, _, _, rfl⟩
      exact ⟨hret, rfl⟩
  | drop => exact absurd hret (dropStep_drop h).2.1
  | beginDrop on =>
      rcases beginDropStep_frame h with ⟨-, hoff, -, -⟩
      rw [hret] at hoff
      cases hoff
  | _ =>
      rcases outside_frame rfl h with ⟨_, _, _, _, _, _, rfl⟩
      exact ⟨hret, rfl⟩

/-- Once `Drop` has returned no host callback is entered again, and if it ran
on a host thread none is being executed. -/
theorem no_callback_after_drop (advance : τ → List UInt8 → τ × List Event) {s : State τ}
    (h : (machine advance).Reachable (fun _ _ => True) s) (hret : s.drop = .returned) :
    (∀ s', (machine advance).Steps (fun _ _ => True) s s' → s'.calls = s.calls) ∧
      (s.dropper = some .host → ¬ s.InCallback) := by
  have hjoined := reachable_joined h
  constructor
  · intro s' hsteps
    have hinv : (Phases s' ∧ Joined s') ∧ s'.drop = .returned ∧ s'.calls = s.calls := by
      refine Lts.Machine.steps_invariant
        (fun t => (Phases t ∧ Joined t) ∧ t.drop = .returned ∧ t.calls = s.calls) ?_ hsteps
        ⟨⟨reachable_phases h, hjoined⟩, hret, rfl⟩
      rintro a t t' - hstep ⟨⟨hph, hs⟩, ht, hcalls⟩
      rcases step_after_drop hstep hph hs ht with ⟨ht', hcalls'⟩
      exact ⟨⟨step_phases hstep hph, step_joined hstep hph hs⟩, ht', hcalls'.trans hcalls⟩
    exact hinv.2.2
  · rintro hon (⟨k, hk⟩ | hw)
    · have hdone := hjoined.pump (by simp [hret, Drop.rank]) (by simp [hon])
      rw [hdone] at hk
      cases hk
    · have hdone := hjoined.watcher (by simp [hret, Drop.rank]) (by simp [hon])
      rw [hdone] at hw
      cases hw

/-- The host drops an idle session. -/
def idleDrop : List Label :=
  List.flatten [List.replicate 5 .start, [.beginDrop .host], List.replicate 5 .drop,
    [.writer, .drop, .drop], List.replicate 6 .pump,
    [.drop, .watcher, .drop, .reader 0, .reader 0, .drop]]

/-- The session of a host that registered every callback. -/
def attended : State Unit := init () "" ⟨true, true, true, true, true⟩ 0

theorem no_callback_after_idleDrop : ∃ s, (machine blank).run attended idleDrop = some s ∧
    s.drop = .returned ∧
    (∀ s', (machine blank).Steps (fun _ _ => True) s s' → s'.calls = s.calls) ∧
    (s.dropper = some .host → ¬ s.InCallback) := by
  have hmeets : (machine blank).Meets (fun _ _ => True) attended idleDrop := by
    decide +kernel
  have htest : ((machine blank).run attended idleDrop).any
      (fun s => decide (s.drop = .returned)) = true := by
    decide +kernel
  obtain ⟨s, hrun, hreach, hs⟩ :=
    Lts.Machine.exists_reachable attended idleDrop (init_Init _ _ _ _) hmeets htest
  have hret : s.drop = .returned := of_decide_eq_true hs
  exact ⟨s, hrun, hret, no_callback_after_drop blank hreach hret⟩

end RataShell.Session
