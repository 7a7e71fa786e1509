import Mathlib.Data.List.TakeWhile
import Mathlib.Tactic.Common
import RataShell.Lib.Machine

/-!
# The library that is loaded

`RataLoadLibrary` and `RataUnloadLibrary`, for libraries with any exports. The addresses of
the functions are kept while no library is loaded, and a load that misses one of them keeps
the library.

* `answer_iff`: a load that answers True has all functions exactly when the library does.
* `called_in_library_iff`: the runs that call no function outside of the library.
-/

namespace RataShell.Loader

/-! ## Functions -/

/-- The functions that `RataLoadLibrary` asks for, in its order. -/
def required : List String :=
  ["rata_init", "rata_shutdown", "rata_version", "rata_last_error_message", "rata_session_create",
   "rata_session_destroy", "rata_session_set_callbacks", "rata_session_start",
   "rata_session_resize", "rata_session_send_text", "rata_session_send_key",
   "rata_session_request_render", "rata_session_terminate", "rata_session_is_alive",
   "rata_session_get_size", "rata_session_get_title", "rata_session_scroll",
   "rata_session_scroll_to_top", "rata_session_scroll_to_bottom", "rata_session_get_scroll_info",
   "rata_session_clear_history", "rata_session_reset", "rata_session_get_exit_code",
   "rata_session_get_child_pid", "rata_session_get_mode_flags",
   "rata_session_set_clipboard_callback", "rata_session_selection_start",
   "rata_session_selection_extend", "rata_session_selection_clear",
   "rata_session_selection_get_text", "rata_session_get_cwd", "rata_session_get_hyperlink",
   "rata_session_toggle_vi_mode", "rata_session_vi_mode_active", "rata_session_vi_motion",
   "rata_session_search_next"]

/-- A library that has been mapped; its number is not used again. -/
structure Library where
  id : Nat
  exports : List String
deriving DecidableEq, Repr

/-- Where `RataLoadLibrary` finds the functions of a library, up to the first that is
missing. -/
def Library.found (lib : Library) : List String := required.takeWhile (· ∈ lib.exports)

/-- All functions are there. -/
def Library.Complete (lib : Library) : Prop := ∀ name ∈ required, name ∈ lib.exports

instance (lib : Library) : Decidable lib.Complete := inferInstanceAs (Decidable (∀ _ ∈ _, _))

/-- `GModule`, the library that each function pointer is into, and whether a function has
been called that is not in the library that is loaded. -/
structure State where
  module : Option Library
  pointers : String → Option Nat
  mapped : Nat
  faulted : Bool

/-- What `RataLoadLibrary` comes to. -/
inductive Answer where
  | returned (loaded : Bool)
  | missing (name : String)
deriving DecidableEq, Repr

namespace State

/-! ## Calls -/

/-- The pointer is into the library that is loaded. -/
def Bound (name : String) (s : State) : Prop :=
  ∃ lib, s.module = some lib ∧ s.pointers name = some lib.id

instance (name : String) (s : State) : Decidable (s.Bound name) :=
  decidable_of_iff (∃ lib ∈ s.module, s.pointers name = some lib.id) Iff.rfl

/-- A call of a function, with or without `Assigned` before it. -/
structure Call where
  name : String
  guarded : Bool

/-- The call is made. -/
def Makes (c : Call) (s : State) : Prop := c.guarded = true → s.pointers c.name ≠ none

instance (c : Call) (s : State) : Decidable (s.Makes c) := inferInstanceAs (Decidable (_ → _))

def call (s : State) (c : Call) : State :=
  if s.Makes c ∧ ¬ s.Bound c.name then { s with faulted := true } else s

def calls (cs : List Call) (s : State) : State := cs.foldl call s

/-! ## Loading -/

/-- The assignments of `RataLoadLibrary`, up to the first that `GetProcRequired` raises
in. -/
def bindAll (lib : Library) : List String → (String → Option Nat) →
    (String → Option Nat) × Option String
  | [], pointers => (pointers, none)
  | name :: names, pointers =>
      if name ∈ lib.exports then
        bindAll lib names fun n => if n = name then some lib.id else pointers n
      else (pointers, some name)

/-- `RataLoadLibrary`; `dll` has the exports of what `LoadLibrary` finds. -/
def loadLibrary (dll : Option (List String)) (s : State) : Answer × State :=
  match s.module, dll with
  | some _, _ => (.returned true, s)
  | none, none => (.returned false, s)
  | none, some exports =>
      let lib : Library := ⟨s.mapped, exports⟩
      match bindAll lib required s.pointers with
      | (pointers, some name) =>
          (.missing name,
            { s with module := some lib, mapped := s.mapped + 1, pointers := pointers })
      | (pointers, none) =>
          (.returned true,
            { s with module := some lib, mapped := s.mapped + 1, pointers := pointers }.call
              ⟨"rata_init", false⟩)

/-- `RataUnloadLibrary`. -/
def unloadLibrary (s : State) : State :=
  if s.module.isNone then s else { s.call ⟨"rata_shutdown", true⟩ with module := none }

/-- `RataLastError`. -/
def lastErrorCall : Call := ⟨"rata_last_error_message", true⟩

/-- The calls of `Start`, as creating and starting the session succeed or fail. -/
def startCalls (created started : Bool) : List Call :=
  if !created then [⟨"rata_session_create", false⟩, lastErrorCall]
  else
    [⟨"rata_session_create", false⟩, ⟨"rata_session_set_callbacks", false⟩,
      ⟨"rata_session_set_clipboard_callback", true⟩, ⟨"rata_session_start", false⟩] ++
      if started then [] else [⟨"rata_session_destroy", false⟩, lastErrorCall]

/-- `Start` of a control that is not active. -/
def start (dll : Option (List String)) (created started : Bool) (s : State) : State :=
  let r := if s.module.isSome then (.returned true, s) else s.loadLibrary dll
  if r.1 = .returned true then r.2.calls (startCalls created started) else r.2

end State

/-! ## Runs -/

inductive Label where
  | load (dll : Option (List String))
  | unload
  | lastError
  | start (dll : Option (List String)) (created started : Bool)
deriving DecidableEq, Repr

open State

def step (a : Label) (s : State) : Option State :=
  match a with
  | .load dll => some (s.loadLibrary dll).2
  | .unload => some s.unloadLibrary
  | .lastError => some (s.call lastErrorCall)
  | .start dll created started => some (s.start dll created started)

/-- Nothing has been loaded. -/
def init : State := ⟨none, fun _ => none, 0, false⟩

def machine : Lts.Machine State Label where
  Init := (· = init)
  step := step

/-! ## What a call and a load do -/

namespace State

variable {s : State}

@[simp] theorem call_module (c : Call) : (s.call c).module = s.module := by
  unfold call; split <;> rfl

@[simp] theorem call_pointers (c : Call) : (s.call c).pointers = s.pointers := by
  unfold call; split <;> rfl

@[simp] theorem call_mapped (c : Call) : (s.call c).mapped = s.mapped := by
  unfold call; split <;> rfl

theorem call_faulted (c : Call) :
    (s.call c).faulted = true ↔ s.faulted = true ∨ s.Makes c ∧ ¬ s.Bound c.name := by
  unfold call
  split
  · next h => simp [h]
  · next h => simp [h]

theorem calls_frame (cs : List Call) : (s.calls cs).module = s.module ∧
    (s.calls cs).pointers = s.pointers ∧ (s.calls cs).mapped = s.mapped := by
  induction cs generalizing s with
  | nil => exact ⟨rfl, rfl, rfl⟩
  | cons c cs ih =>
      rcases ih (s := s.call c) with ⟨hmodule, hpointers, hmapped⟩
      exact ⟨hmodule.trans (call_module c), hpointers.trans (call_pointers c),
        hmapped.trans (call_mapped c)⟩

theorem calls_faulted (cs : List Call) :
    (s.calls cs).faulted = true ↔
      s.faulted = true ∨ ∃ c ∈ cs, s.Makes c ∧ ¬ s.Bound c.name := by
  induction cs generalizing s with
  | nil => simp [calls]
  | cons c cs ih =>
      have hcall : (s.calls (c :: cs)).faulted = ((s.call c).calls cs).faulted := rfl
      rw [hcall, ih, call_faulted]
      simp only [Makes, Bound, call_module, call_pointers, List.mem_cons, exists_eq_or_imp,
        or_assoc]

/-- The pointers that the assignments leave. -/
theorem bindAll_pointers (lib : Library) (names : List String) (pointers : String → Option Nat)
    (name : String) :
    (bindAll lib names pointers).1 name =
      if name ∈ names.takeWhile (· ∈ lib.exports) then some lib.id else pointers name := by
  induction names generalizing pointers with
  | nil => simp [bindAll]
  | cons n names ih =>
      unfold bindAll
      split
      · next hn =>
          rw [ih, List.takeWhile_cons_of_pos (by simpa using hn)]
          by_cases hname : name = n
          · simp [hname]
          · simp [hname]
      · next hn => simp [hn]

theorem bindAll_eq_none_iff (lib : Library) (names : List String)
    (pointers : String → Option Nat) :
    (bindAll lib names pointers).2 = none ↔ ∀ name ∈ names, name ∈ lib.exports := by
  induction names generalizing pointers with
  | nil => simp [bindAll]
  | cons n names ih =>
      unfold bindAll
      split
      · next hn => rw [ih, List.forall_mem_cons, and_iff_right hn]
      · next hn => simp [hn]

end State

theorem Library.mem_found_of_complete {lib : Library} (h : lib.Complete) {name : String}
    (hname : name ∈ required) : name ∈ lib.found := by
  have hfound : lib.found = required :=
    List.takeWhile_eq_self_iff.2 fun n hn => by simpa using h n hn
  rw [hfound]
  exact hname

theorem Library.complete_iff_found (lib : Library) :
    lib.Complete ↔ ∀ name ∈ required, name ∈ lib.found := by
  refine ⟨fun h name hname => mem_found_of_complete h hname, fun h name hname => ?_⟩
  have hname' := List.mem_takeWhile_imp (h name hname)
  simpa using hname'

/-! ## The invariant -/

/-- Every pointer is into a library that has been mapped; those into the one that is loaded
are the functions that were found before the first missing one. -/
structure Inv (s : State) : Prop where
  old : ∀ name id, s.pointers name = some id → id < s.mapped
  loaded : ∀ lib, s.module = some lib → lib.id < s.mapped
  found : ∀ lib, s.module = some lib → ∀ name, s.pointers name = some lib.id ↔ name ∈ lib.found

theorem Inv.bound_iff {s : State} (hs : Inv s) {lib : Library} (hlib : s.module = some lib)
    (name : String) : s.Bound name ↔ name ∈ lib.found := by
  rw [← hs.found lib hlib name]
  constructor
  · rintro ⟨lib', hlib', hname⟩
    rw [hlib] at hlib'
    cases hlib'
    exact hname
  · exact fun hname => ⟨lib, hlib, hname⟩

/-- Where a library is found and none is loaded, it is loaded from then on. -/
theorem loadLibrary_new {s : State} (hs : Inv s) (hmodule : s.module = none)
    (exports : List String) :
    Inv (s.loadLibrary (some exports)).2 ∧
      (s.loadLibrary (some exports)).2.module = some ⟨s.mapped, exports⟩ ∧
      ((s.loadLibrary (some exports)).1 = .returned true ↔
        (⟨s.mapped, exports⟩ : Library).Complete) ∧
      ((s.loadLibrary (some exports)).2.faulted = true ↔ s.faulted = true) := by
  have hpointers := bindAll_pointers ⟨s.mapped, exports⟩ required s.pointers
  have hanswer : (bindAll ⟨s.mapped, exports⟩ required s.pointers).2 = none ↔
      (⟨s.mapped, exports⟩ : Library).Complete := bindAll_eq_none_iff _ _ _
  rcases hbind : bindAll ⟨s.mapped, exports⟩ required s.pointers with ⟨pointers, missing⟩
  simp only [hbind] at hpointers hanswer
  have hold : ∀ name id, pointers name = some id → id < s.mapped + 1 := by
    intro name id hid
    rw [hpointers] at hid
    split at hid
    · cases hid
      exact Nat.lt_succ_self _
    · exact Nat.lt_succ_of_lt (hs.old name id hid)
  have hfound : ∀ name, pointers name = some s.mapped ↔
      name ∈ (⟨s.mapped, exports⟩ : Library).found := by
    intro name
    rw [hpointers]
    constructor
    · intro hid
      split at hid
      · next hname => exact hname
      · exact absurd (hs.old name s.mapped hid) (Nat.lt_irrefl _)
    · intro hname
      exact if_pos hname
  have hinv : Inv { s with
      module := some ⟨s.mapped, exports⟩, mapped := s.mapped + 1, pointers := pointers } := by
    refine ⟨hold, ?_, ?_⟩
    · rintro lib ⟨⟩
      exact Nat.lt_succ_self _
    · rintro lib ⟨⟩
      exact hfound
  cases missing with
  | some name =>
      have hload : s.loadLibrary (some exports) = (.missing name, { s with
          module := some ⟨s.mapped, exports⟩, mapped := s.mapped + 1, pointers := pointers }) := by
        simp only [loadLibrary, hmodule, hbind]
      rw [hload]
      refine ⟨hinv, rfl, ?_, Iff.rfl⟩
      rw [← hanswer]
      simp
  | none =>
      have hload : s.loadLibrary (some exports) = (.returned true, { s with
          module := some ⟨s.mapped, exports⟩, mapped := s.mapped + 1, pointers := pointers }.call
            ⟨"rata_init", false⟩) := by
        simp only [loadLibrary, hmodule, hbind]
      have hcomplete := hanswer.1 rfl
      have hinit := (hinv.bound_iff rfl "rata_init").2
        (Library.mem_found_of_complete hcomplete (by decide))
      rw [hload]
      refine ⟨⟨?_, ?_, ?_⟩, by simp, iff_of_true rfl hcomplete, ?_⟩
      · simpa using hinv.old
      · simp
      · simpa using hinv.found
      · rw [call_faulted]
        simp [hinit]

/-! ## Runs -/

theorem loadLibrary_loaded {s : State} {lib : Library} (hlib : s.module = some lib)
    (dll : Option (List String)) : s.loadLibrary dll = (.returned true, s) := by
  simp only [loadLibrary, hlib]

theorem loadLibrary_not_found {s : State} (hmodule : s.module = none) :
    s.loadLibrary none = (.returned false, s) := by
  simp only [loadLibrary, hmodule]

theorem loadLibrary_inv {s : State} (hs : Inv s) (dll : Option (List String)) :
    Inv (s.loadLibrary dll).2 ∧ ((s.loadLibrary dll).2.faulted = true ↔ s.faulted = true) := by
  cases hmodule : s.module with
  | some lib =>
      rw [loadLibrary_loaded hmodule]
      exact ⟨hs, Iff.rfl⟩
  | none =>
      cases dll with
      | none =>
          rw [loadLibrary_not_found hmodule]
          exact ⟨hs, Iff.rfl⟩
      | some exports =>
          rcases loadLibrary_new hs hmodule exports with ⟨hinv, -, -, hfaulted⟩
          exact ⟨hinv, hfaulted⟩

theorem Inv.congr {s s' : State} (hs : Inv s) (hmodule : s'.module = s.module)
    (hpointers : s'.pointers = s.pointers) (hmapped : s'.mapped = s.mapped) : Inv s' := by
  refine ⟨?_, ?_, ?_⟩
  · rw [hpointers, hmapped]
    exact hs.old
  · rw [hmodule, hmapped]
    exact hs.loaded
  · rw [hmodule, hpointers]
    exact hs.found

theorem Inv.calls {s : State} (hs : Inv s) (cs : List Call) : Inv (s.calls cs) := by
  rcases calls_frame (s := s) cs with ⟨hmodule, hpointers, hmapped⟩
  exact hs.congr hmodule hpointers hmapped

theorem start_inv {s : State} (hs : Inv s) (dll : Option (List String)) (created started : Bool) :
    Inv (s.start dll created started) := by
  have hr : Inv (if s.module.isSome then (Answer.returned true, s) else s.loadLibrary dll).2 := by
    split
    · exact hs
    · exact (loadLibrary_inv hs dll).1
  unfold State.start
  extract_lets r
  split
  · exact hr.calls _
  · exact hr

theorem step_inv {a : Label} {s s' : State} (hstep : step a s = some s') (hs : Inv s) :
    Inv s' := by
  cases a with
  | load dll =>
      cases hstep
      exact (loadLibrary_inv hs dll).1
  | unload =>
      cases hstep
      unfold unloadLibrary
      split
      · exact hs
      · refine ⟨?_, ?_, ?_⟩
        · simpa using hs.old
        · rintro lib ⟨⟩
        · rintro lib ⟨⟩
  | lastError =>
      cases hstep
      exact hs.congr (call_module _) (call_pointers _) (call_mapped _)
  | start dll created started =>
      cases hstep
      exact start_inv hs dll created started

theorem init_inv : Inv init := by
  refine ⟨?_, ?_, ?_⟩
  · rintro name id ⟨⟩
  · rintro lib ⟨⟩
  · rintro lib ⟨⟩

theorem reachable_inv {s : State} (hs : machine.Reachable (fun _ _ => True) s) : Inv s := by
  refine Lts.Machine.init_invariant Inv ?_ (fun a s s' _ hstep hs => step_inv hstep hs) hs
  rintro s rfl
  exact init_inv

/-- When `RataLoadLibrary` answers True, a library is loaded, and it may be one that an
earlier load has raised for: the functions that can be called are those before its first
missing one, and they are all exactly when it is complete. -/
theorem answer_iff {s : State} (hs : machine.Reachable (fun _ _ => True) s)
    {dll : Option (List String)} (htrue : (s.loadLibrary dll).1 = .returned true) :
    ∃ lib, (s.loadLibrary dll).2.module = some lib ∧
      (∀ name, (s.loadLibrary dll).2.Bound name ↔ name ∈ lib.found) ∧
      ((∀ name ∈ required, (s.loadLibrary dll).2.Bound name) ↔ lib.Complete) := by
  have hinv := reachable_inv hs
  have hload := (loadLibrary_inv hinv dll).1
  have hmodule : ∃ lib, (s.loadLibrary dll).2.module = some lib := by
    cases hm : s.module with
    | some lib =>
        rw [loadLibrary_loaded hm]
        exact ⟨lib, hm⟩
    | none =>
        cases dll with
        | none =>
            rw [loadLibrary_not_found hm] at htrue
            cases htrue
        | some exports => exact ⟨_, (loadLibrary_new hinv hm exports).2.1⟩
  rcases hmodule with ⟨lib, hlib⟩
  refine ⟨lib, hlib, hload.bound_iff hlib, ?_⟩
  rw [lib.complete_iff_found]
  exact forall₂_congr fun name _ => hload.bound_iff hlib name

/-- The second load answers True for a library in which the first has missed a function. -/
theorem answer_iff_second :
    ∃ s, machine.run init [.load (some ["rata_init"])] = some s ∧
      (s.loadLibrary none).1 = .returned true ∧
      ∃ lib, (s.loadLibrary none).2.module = some lib ∧
        (∀ name, (s.loadLibrary none).2.Bound name ↔ name ∈ lib.found) ∧
        ((∀ name ∈ required, (s.loadLibrary none).2.Bound name) ↔ lib.Complete) := by
  have hrun : (machine.run init [.load (some ["rata_init"])]).any
      (fun s => (s.loadLibrary none).1 = .returned true) = true := by decide +kernel
  rcases Lts.Machine.exists_reachable (C := fun _ _ => True) init _ rfl
    (by decide +kernel) hrun with ⟨s, hs, hreach, htrue⟩
  exact ⟨s, hs, of_decide_eq_true htrue, answer_iff hreach (of_decide_eq_true htrue)⟩

/-! ## Calls outside of the library -/

/-- What is called at a step is in the library that is loaded, if it is called. -/
def InLibrary : Lts.StepCond State Label := fun a s =>
  match a with
  | .load _ => True
  | .unload => ∀ lib, s.module = some lib → s.pointers "rata_shutdown" ≠ none →
      "rata_shutdown" ∈ lib.found
  | .lastError => s.pointers "rata_last_error_message" ≠ none →
      ∃ lib, s.module = some lib ∧ "rata_last_error_message" ∈ lib.found
  | .start _ created started => ∀ lib, s.module = some lib →
      ∀ c ∈ startCalls created started, s.Makes c → c.name ∈ lib.found

theorem startCalls_required (created started : Bool) :
    ∀ c ∈ startCalls created started, c.name ∈ required := by
  cases created <;> cases started <;> decide

theorem calls_not_faulted_iff {s : State} (hs : Inv s) {lib : Library}
    (hlib : s.module = some lib) (hok : ¬ s.faulted = true) (cs : List Call) :
    ¬ (s.calls cs).faulted = true ↔ ∀ c ∈ cs, s.Makes c → c.name ∈ lib.found := by
  rw [calls_faulted, or_iff_right hok, not_exists]
  refine forall_congr' fun c => ?_
  rw [hs.bound_iff hlib]
  tauto

theorem start_not_faulted_iff {s : State} (hs : Inv s) (hok : ¬ s.faulted = true)
    (dll : Option (List String)) (created started : Bool) :
    ¬ (s.start dll created started).faulted = true ↔
      InLibrary (.start dll created started) s := by
  cases hmodule : s.module with
  | some lib =>
      have hstart : s.start dll created started = s.calls (startCalls created started) := by
        simp [State.start, hmodule]
      rw [hstart, calls_not_faulted_iff hs hmodule hok]
      simp [InLibrary, hmodule]
  | none =>
      have hsound : InLibrary (.start dll created started) s := by simp [InLibrary, hmodule]
      refine iff_of_true ?_ hsound
      cases dll with
      | none => simpa [State.start, hmodule, loadLibrary_not_found hmodule] using hok
      | some exports =>
          rcases loadLibrary_new hs hmodule exports with ⟨hinv, hlib, hanswer, hfaulted⟩
          have hok' : ¬ (s.loadLibrary (some exports)).2.faulted = true := fun h =>
            hok (hfaulted.1 h)
          by_cases hcomplete : (⟨s.mapped, exports⟩ : Library).Complete
          · have hstart : s.start (some exports) created started =
                (s.loadLibrary (some exports)).2.calls (startCalls created started) := by
              simp [State.start, hmodule, hanswer.2 hcomplete]
            rw [hstart, calls_not_faulted_iff hinv hlib hok']
            exact fun c hc _ => Library.mem_found_of_complete hcomplete
              (startCalls_required created started c hc)
          · have hstart : s.start (some exports) created started =
                (s.loadLibrary (some exports)).2 := by
              simp [State.start, hmodule, mt hanswer.1 hcomplete]
            rw [hstart]
            exact hok'

theorem step_not_faulted_iff {a : Label} {s s' : State} (hstep : step a s = some s')
    (hs : Inv s) (hok : ¬ s.faulted = true) : ¬ s'.faulted = true ↔ InLibrary a s := by
  cases a with
  | load dll =>
      cases hstep
      refine iff_of_true ?_ trivial
      rw [(loadLibrary_inv hs dll).2]
      exact hok
  | unload =>
      cases hstep
      cases hmodule : s.module with
      | none =>
          have hunload : s.unloadLibrary = s := by simp [unloadLibrary, hmodule]
          rw [hunload]
          exact iff_of_true hok (by simp [InLibrary, hmodule])
      | some lib =>
          have hunload : s.unloadLibrary.faulted = (s.call ⟨"rata_shutdown", true⟩).faulted := by
            simp [unloadLibrary, hmodule]
          rw [hunload, call_faulted, or_iff_right hok, hs.bound_iff hmodule]
          simp [InLibrary, hmodule, Makes]
  | lastError =>
      cases hstep
      rw [call_faulted, or_iff_right hok]
      cases hmodule : s.module with
      | none => simp [InLibrary, hmodule, Makes, Bound, lastErrorCall]
      | some lib =>
          rw [hs.bound_iff hmodule]
          simp [InLibrary, hmodule, Makes, lastErrorCall]
  | start dll created started =>
      cases hstep
      exact start_not_faulted_iff hs hok dll created started

/-- A run of loads, unloads, errors that are asked for and starts calls no function outside
of the library that is loaded exactly when at each step the functions that are called,
because they are not guarded or their pointers are still set, come before the first that
the library misses. -/
theorem called_in_library_iff (as : List Label) :
    machine.Along (fun s => ¬ s.faulted = true) init as ↔ machine.Meets InLibrary init as :=
  Lts.Machine.along_iff_meets (I := Inv) (fun _ _ _ hstep hs => step_inv hstep hs)
    (fun _ _ _ hstep hs hok => step_not_faulted_iff hstep hs hok) as init_inv (by simp [init])

end RataShell.Loader
