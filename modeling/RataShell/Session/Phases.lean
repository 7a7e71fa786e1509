import RataShell.Session.Moves

/-!
# The phases of a session

Which threads exist at which point of `start`, where `Drop` runs, and that the
thread it runs on stays in its callback meanwhile (`Phases`). Later invariants
are proved relative to them (`reachable_invariant`).
-/

namespace RataShell.Session

variable {τ : Type} {advance : τ → List UInt8 → τ × List Event} {s s' : State τ}

/-! ## The phases of start and drop -/

/-- What the program points of `start` and `Drop` say about the other
threads. -/
structure Phases (s : State τ) : Prop where
  alive : s.start = .storeAlive → s.alive = false
  pump : s.pump = .unspawned ↔ s.start = .storeAlive ∨ s.start = .spawnPump
  watcher : s.watcher = .unspawned ↔
    s.start = .storeAlive ∨ s.start = .spawnPump ∨ s.start = .storePty ∨ s.start = .spawnWatcher
  drop : s.drop ≠ .notStarted → s.start = .returned
  dropper : s.dropper = none ↔ s.drop = .notStarted
  onPump : s.dropper = some .pump → s.drop ≠ .returned → ∃ k, s.pump = .inCall k
  onWatcher : s.dropper = some .watcher → s.drop ≠ .returned → s.watcher = .inCall

theorem init_phases (h : Init s) : Phases s := by
  rcases h with ⟨term, title, cbs, code, rfl⟩
  constructor <;> simp [init]

/-- `Drop` does not begin before `start` has returned. -/
theorem startStep_off (h : startStep s = some s') (hph : Phases s) : s.drop = .notStarted := by
  by_contra hne
  simp [startStep, hph.drop hne] at h

theorem Resume.next_ne_unspawned (k : Resume) : (k.next : Pump τ) ≠ .unspawned := by
  fun_cases Resume.next k <;> simp

theorem lookup_ne_unspawned (c : HostCall τ) (k : Resume) : s.lookup c k ≠ .unspawned := by
  unfold State.lookup
  split
  · simp
  · exact k.next_ne_unspawned

/-- The pump moves between its program points once it is spawned, and not out
of the callback that runs `Drop`. -/
theorem pumpStep_pump (h : pumpStep advance s = some s') :
    s.pump ≠ .unspawned ∧ s'.pump ≠ .unspawned ∧
      ¬ (s.dropper = some .pump ∧ s.drop ≠ .returned ∧ ∃ k, s.pump = .inCall k) := by
  cases pumpStep_move h with
  | advance hp => rcases hp with hp | hp <;> simp [hp]
  | inCall hp hfree =>
      refine ⟨by simp [hp], Resume.next_ne_unspawned _, ?_⟩
      rintro ⟨hon, hlive, -⟩
      exact hfree ⟨hon, hlive⟩
  | dispatchCall hp _ | render hp | eofRender hp | notifyExit hp =>
      exact ⟨by simp [hp], lookup_ne_unspawned _ _, by simp [hp]⟩
  | _ => simp [*]

theorem watcherStep_watcher (h : watcherStep s = some s') :
    s.watcher ≠ .unspawned ∧ s'.watcher ≠ .unspawned ∧
      ¬ (s.dropper = some .watcher ∧ s.drop ≠ .returned ∧ s.watcher = .inCall) := by
  cases watcherStep_move h with
  | inCall hw hfree =>
      refine ⟨by simp [hw], by simp, ?_⟩
      rintro ⟨hon, hlive, -⟩
      exact hfree ⟨hon, hlive⟩
  | _ => simp [*]

theorem dropStep_drop (h : dropStep s = some s') :
    s.drop ≠ .notStarted ∧ s.drop ≠ .returned ∧ s'.drop ≠ .notStarted := by
  cases dropStep_move h <;> simp [*]

theorem mayDropOn_pump : s.mayDropOn .pump = true ↔ ∃ k, s.pump = .inCall k := by
  unfold State.mayDropOn
  cases s.pump <;> simp

theorem mayDropOn_watcher : s.mayDropOn .watcher = true ↔ s.watcher = .inCall := by
  simp [State.mayDropOn]

theorem step_phases {a : Label} (h : step advance a s = some s') (hs : Phases s) :
    Phases s' := by
  rcases hs with ⟨halive, hpump, hwatcher, hdrop, hdropper, honPump, honWatcher⟩
  cases a with
  | start =>
      have hoff := startStep_off h ⟨halive, hpump, hwatcher, hdrop, hdropper, honPump, honWatcher⟩
      -- each phase of `start` spawns or stores at most one thread
      cases startStep_move h <;> constructor <;> simp_all
  | pump =>
      rcases pumpStep_pump h with ⟨hne, hne', hin⟩
      rcases pumpStep_frame h with ⟨alive, _, _, _, _, _, _, pump, _, _, _, _, _, _, rfl⟩
      constructor <;> simp_all
  | watcher =>
      rcases watcherStep_watcher h with ⟨hne, hne', hin⟩
      rcases watcherStep_frame h with ⟨alive, _, watcher, _, rfl⟩
      constructor <;> simp_all
  | drop =>
      rcases dropStep_drop h with ⟨hne, hlive, hne'⟩
      rcases dropStep_frame h with ⟨_, _, _, _, _, _, _, drop, rfl⟩
      constructor <;> simp_all
  | reader n =>
      rcases readerStep_frame h with ⟨_, _, _, _, rfl⟩
      exact ⟨halive, hpump, hwatcher, hdrop, hdropper, honPump, honWatcher⟩
  | writer =>
      rcases writerStep_frame h with ⟨_, _, _, rfl⟩
      exact ⟨halive, hpump, hwatcher, hdrop, hdropper, honPump, honWatcher⟩
  | beginDrop on =>
      rcases beginDropStep_frame h with ⟨hst, hoff, hmay, rfl⟩
      constructor <;> simp_all
      · rintro rfl
        exact mayDropOn_pump.1 hmay
      · rintro rfl
        exact mayDropOn_watcher.1 hmay
  | _ =>
      rcases outside_frame rfl h with ⟨_, _, _, _, _, _, rfl⟩
      exact ⟨halive, hpump, hwatcher, hdrop, hdropper, honPump, honWatcher⟩

theorem reachable_phases {C : Lts.StepCond (State τ) Label}
    (h : (machine advance).Reachable C s) : Phases s :=
  Lts.Machine.init_invariant Phases (fun _ => init_phases) (fun _ _ _ _ => step_phases) h

/-- What one step keeps between states with their phases, any number of steps
keep. -/
theorem steps_invariant (Inv : State τ → Prop) {C : Lts.StepCond (State τ) Label}
    (hstep : ∀ a s s', C a s → step advance a s = some s' → Phases s → Inv s → Inv s')
    (h : (machine advance).Steps C s s') (hph : Phases s) (hs : Inv s) : Inv s' := by
  have hboth : Phases s' ∧ Inv s' := by
    refine Lts.Machine.steps_invariant (fun s => Phases s ∧ Inv s) ?_ h ⟨hph, hs⟩
    intro a s s' hC hs hinv
    exact ⟨step_phases hs hinv.1, hstep a s s' hC hs hinv.1 hinv.2⟩
  exact hboth.2

/-- Inductive invariance relative to the phases. -/
theorem reachable_invariant (Inv : State τ → Prop) {C : Lts.StepCond (State τ) Label}
    (hinit : ∀ s, Init s → Inv s)
    (hstep : ∀ a s s', C a s → step advance a s = some s' → Phases s → Inv s → Inv s')
    (h : (machine advance).Reachable C s) : Inv s := by
  rcases h with ⟨s₀, hs₀, hsteps⟩
  exact steps_invariant Inv hstep hsteps (init_phases hs₀) (hinit s₀ hs₀)

end RataShell.Session
