import Mathlib.Data.Fintype.Basic
import Mathlib.Data.List.Pairwise
import RataShell.Lib.Machine

/-!
# The order of frames

`Session::request_render` and the render section of the pump: take a snapshot
under the term and backend locks, clone `on_render` under the callbacks lock,
call it with no lock held. Any number of activations interleave: the pump,
host threads inside an operation, and calls nested in a callback.

* `NoOvertake`: a frame is delivered while no older one is on its way.
* `frames_ordered`: under it the host receives the frames in the order of
  their snapshots and ends with the latest; and whatever run breaks it can be
  continued to one that delivers an older frame after a newer one.
-/

namespace RataShell.Render

/-! ## The producers -/

/-- A snapshot with its number in the order of the locks. -/
structure Frame (τ : Type) where
  seq : Nat
  snap : τ
deriving DecidableEq, Repr

/-- An activation of `request_render`. -/
inductive Producer (τ : Type) where
  | idle
  | snapped (f : Frame τ)
  | cloned (f : Frame τ)
  | inCall
deriving DecidableEq, Repr

/-- The frame on its way. -/
def Producer.frame {τ : Type} : Producer τ → Option (Frame τ)
  | .snapped f | .cloned f => some f
  | .idle | .inCall => none

/-- The terminal content, whether `on_render` is registered, the activations,
and the frames taken and received so far. -/
structure State (ι τ : Type) where
  term : τ
  on_render : Bool
  producer : ι → Producer τ
  taken : List (Frame τ)
  received : List (Frame τ)

/-- A change of the content under the term lock, one of the callback table, or
a step of an activation. -/
inductive Label (ι τ : Type) where
  | change (term : τ)
  | setCallbacks (on_render : Bool)
  | render (i : ι)
deriving Repr

variable {ι τ : Type}

/-- `Session::request_render`. -/
def renderStep [DecidableEq ι] (i : ι) (s : State ι τ) : State ι τ :=
  match s.producer i with
  | .idle =>
      { s with
        taken := s.taken ++ [⟨s.taken.length, s.term⟩]
        producer := Function.update s.producer i (.snapped ⟨s.taken.length, s.term⟩) }
  | .snapped f =>
      { s with producer := Function.update s.producer i (if s.on_render then .cloned f else .idle) }
  | .cloned f =>
      { s with
        received := s.received ++ [f]
        producer := Function.update s.producer i .inCall }
  | .inCall => { s with producer := Function.update s.producer i .idle }

/-- One step; none of them waits. -/
def step [DecidableEq ι] (a : Label ι τ) (s : State ι τ) : Option (State ι τ) :=
  match a with
  | .change term => some { s with term := term }
  | .setCallbacks on_render => some { s with on_render := on_render }
  | .render i => some (renderStep i s)

/-- No frame has been taken. -/
def init (term : τ) (on_render : Bool) : State ι τ where
  term := term
  on_render := on_render
  producer := fun _ => .idle
  taken := []
  received := []

/-- The initial states. -/
def Init (s : State ι τ) : Prop := ∃ term on_render, s = init term on_render

theorem init_Init (term : τ) (on_render : Bool) : Init (init term on_render : State ι τ) :=
  ⟨term, on_render, rfl⟩

/-- Rendering as a machine. -/
def machine (ι τ : Type) [DecidableEq ι] : Lts.Machine (State ι τ) (Label ι τ) where
  Init := Init
  step := step

/-- The frames are received in the order of their snapshots, and once every
activation has returned the last one received is the last one taken. -/
structure FramesOk (s : State ι τ) : Prop where
  order : s.received.Pairwise (fun f g => f.seq < g.seq)
  latest : (∀ i, s.producer i = .idle) → s.received.getLast? = s.taken.getLast?

/-- `on_render` is registered. -/
def Registered : Lts.StepCond (State ι τ) (Label ι τ) := fun _ s => s.on_render = true

/-- A frame is delivered while no older one is on its way. -/
def NoOvertake : Lts.StepCond (State ι τ) (Label ι τ) := fun a s =>
  match a with
  | .render i =>
      match s.producer i with
      | .cloned f => ∀ j, ∀ g ∈ (s.producer j).frame, f.seq ≤ g.seq
      | _ => True
  | _ => True

instance (a : Label ι τ) (s : State ι τ) : Decidable (Registered a s) :=
  decEq s.on_render true

instance [Fintype ι] (a : Label ι τ) (s : State ι τ) : Decidable (NoOvertake a s) := by
  unfold NoOvertake
  split
  · split <;> infer_instance
  · infer_instance

/-! ## Deliveries without overtaking -/

/-- The frames received are the first ones taken; the others are on their way,
each with one activation. -/
structure Inv (s : State ι τ) : Prop where
  seq : ∀ (n : Nat) (f : Frame τ), s.taken[n]? = some f → f.seq = n
  received : s.received = s.taken.take s.received.length
  pending : ∀ i, ∀ f ∈ (s.producer i).frame,
    s.received.length ≤ f.seq ∧ s.taken[f.seq]? = some f
  waiting : ∀ n, s.received.length ≤ n → n < s.taken.length →
    ∃ i, ∃ f ∈ (s.producer i).frame, f.seq = n
  distinct : ∀ i j, ∀ f ∈ (s.producer i).frame, ∀ g ∈ (s.producer j).frame,
    f.seq = g.seq → i = j

theorem init_inv (term : τ) (on_render : Bool) : Inv (init term on_render : State ι τ) := by
  constructor <;> simp [init, Producer.frame]

/-- Without overtaking the frame delivered is the oldest one not yet received. -/
theorem Inv.next {s : State ι τ} (hs : Inv s) {i : ι} {f : Frame τ}
    (hp : s.producer i = .cloned f) (hno : ∀ j, ∀ g ∈ (s.producer j).frame, f.seq ≤ g.seq) :
    f.seq = s.received.length := by
  obtain ⟨hle, hget⟩ := hs.pending i f (by simp [hp, Producer.frame])
  have hlt : f.seq < s.taken.length := by
    by_contra hge
    rw [List.getElem?_eq_none (by omega)] at hget
    cases hget
  obtain ⟨j, g, hg, hseq⟩ := hs.waiting s.received.length le_rfl (by omega)
  have hfg := hno j g hg
  omega

/-- The first frames taken are in the order of their numbers. -/
theorem Inv.framesOk {s : State ι τ} (hs : Inv s) : FramesOk s := by
  constructor
  · rw [List.pairwise_iff_getElem]
    intro m n hm hn hlt
    have hget : ∀ k (hk : k < s.received.length), s.received[k].seq = k := by
      intro k hk
      apply hs.seq k
      rw [← List.getElem?_eq_getElem hk]
      conv_rhs => rw [hs.received]
      rw [List.getElem?_take_of_lt hk]
    rw [hget m hm, hget n hn]
    exact hlt
  · intro hidle
    have hall : s.taken.length ≤ s.received.length := by
      by_contra hlt
      obtain ⟨i, f, hf, -⟩ := hs.waiting s.received.length le_rfl (by omega)
      simp [hidle i, Producer.frame] at hf
    rw [hs.received, List.take_of_length_le hall]

variable [DecidableEq ι]

/-- An activation other than `i` has its old frame, `i` has that of `q`. -/
theorem frame_update {p : ι → Producer τ} {i j : ι} {q : Producer τ} {f : Frame τ}
    (h : f ∈ (Function.update p i q j).frame) :
    (j = i ∧ f ∈ q.frame) ∨ (j ≠ i ∧ f ∈ (p j).frame) := by
  by_cases hj : j = i
  · subst hj
    exact .inl ⟨rfl, by simpa using h⟩
  · exact .inr ⟨hj, by simpa [hj] using h⟩

/-- A snapshot is numbered by those before it. -/
theorem snapshot_inv {s : State ι τ} {i : ι} (hs : Inv s) (hp : s.producer i = .idle) :
    Inv { s with
      taken := s.taken ++ [⟨s.taken.length, s.term⟩]
      producer := Function.update s.producer i (.snapped ⟨s.taken.length, s.term⟩) } := by
  have hlen : s.received.length ≤ s.taken.length := by
    rw [hs.received]
    simp
  have hold : ∀ j, ∀ f ∈ (s.producer j).frame, f.seq < s.taken.length := by
    intro j f hf
    have hget := (hs.pending j f hf).2
    by_contra hge
    rw [List.getElem?_eq_none (by omega)] at hget
    cases hget
  constructor
  · intro n f hf
    rcases Nat.lt_trichotomy n s.taken.length with hlt | heq | hgt
    · exact hs.seq n f (by rwa [List.getElem?_append_left hlt] at hf)
    · subst heq
      simp at hf
      simp [← hf]
    · rw [List.getElem?_eq_none (by simp; omega)] at hf
      cases hf
  · rw [List.take_append_of_le_length hlen]
    exact hs.received
  · intro j f hf
    rcases frame_update hf with ⟨-, hf⟩ | ⟨-, hf⟩
    · obtain rfl : _ = f := by simpa [Producer.frame] using hf
      simpa using hlen
    · rcases hs.pending j f hf with ⟨hle, hget⟩
      exact ⟨hle, by rwa [List.getElem?_append_left (hold j f hf)]⟩
  · intro n hle hlt
    -- the new frame waits with `i`, the others where they were
    by_cases hn : n = s.taken.length
    · exact ⟨i, ⟨s.taken.length, s.term⟩, by simp [Producer.frame], hn.symm⟩
    · have hlt' : n < s.taken.length := by
        simp only [List.length_append, List.length_singleton] at hlt
        omega
      rcases hs.waiting n hle hlt' with ⟨j, f, hf, hseq⟩
      have hj : j ≠ i := by
        rintro rfl
        simp [hp, Producer.frame] at hf
      exact ⟨j, f, by simpa [hj] using hf, hseq⟩
  · intro j k f hf g hg hfg
    rcases frame_update hf with ⟨hj, hf⟩ | ⟨hj, hf⟩ <;>
      rcases frame_update hg with ⟨hk, hg⟩ | ⟨hk, hg⟩
    · rw [hj, hk]
    · obtain rfl : _ = f := by simpa [Producer.frame] using hf
      have hlt := hold k g hg
      simp only at hfg
      omega
    · obtain rfl : _ = g := by simpa [Producer.frame] using hg
      have hlt := hold j f hf
      simp only at hfg
      omega
    · exact hs.distinct j k f hf g hg hfg

/-- A step that neither takes a snapshot nor delivers one leaves the frame on
its way where it is. -/
theorem Inv.keep {s : State ι τ} (hs : Inv s) {i : ι} {p : Producer τ}
    (hp : p.frame = (s.producer i).frame) :
    Inv { s with producer := Function.update s.producer i p } := by
  have hframe : ∀ j, (Function.update s.producer i p j).frame = (s.producer j).frame := by
    intro j
    by_cases hj : j = i
    · subst hj
      simpa using hp
    · simp [hj]
  constructor
  · exact hs.seq
  · exact hs.received
  · intro j f hf
    exact hs.pending j f (by rwa [← hframe j])
  · intro n hle hlt
    rcases hs.waiting n hle hlt with ⟨j, f, hf, hseq⟩
    exact ⟨j, f, by rwa [hframe j], hseq⟩
  · intro j k f hf g hg
    exact hs.distinct j k f (by rwa [← hframe j]) g (by rwa [← hframe k])

/-- The oldest frame is delivered. -/
theorem deliver_inv {s : State ι τ} {i : ι} {f : Frame τ} (hs : Inv s)
    (hp : s.producer i = .cloned f) (hseq : f.seq = s.received.length) :
    Inv { s with
      received := s.received ++ [f]
      producer := Function.update s.producer i .inCall } := by
  have hf : f ∈ (s.producer i).frame := by simp [hp, Producer.frame]
  have hget := (hs.pending i f hf).2
  constructor
  · exact hs.seq
  · rw [List.length_append, List.length_singleton, List.take_add_one, ← hs.received, ← hseq, hget]
    rfl
  · intro j g hg
    rcases frame_update hg with ⟨-, hg⟩ | ⟨hj, hg⟩
    · simp [Producer.frame] at hg
    · -- no other activation has the frame delivered
      rcases hs.pending j g hg with ⟨hle, hget'⟩
      have hne : g.seq ≠ f.seq := fun heq => hj (hs.distinct j i g hg f hf heq)
      refine ⟨?_, hget'⟩
      simp only [List.length_append, List.length_singleton]
      omega
  · intro n hle hlt
    simp only [List.length_append, List.length_singleton] at hle
    obtain ⟨j, g, hg, hn⟩ := hs.waiting n (by omega) hlt
    have hj : j ≠ i := by
      rintro rfl
      obtain rfl : f = g := by simpa [hp, Producer.frame] using hg
      omega
    exact ⟨j, g, by simpa [hj] using hg, hn⟩
  · intro j k g hg g' hg' heq
    rcases frame_update hg with ⟨-, hg⟩ | ⟨-, hg⟩
    · simp [Producer.frame] at hg
    · rcases frame_update hg' with ⟨-, hg'⟩ | ⟨-, hg'⟩
      · simp [Producer.frame] at hg'
      · exact hs.distinct j k g hg g' hg' heq

theorem step_inv {a : Label ι τ} {s s' : State ι τ} (h : step a s = some s')
    (hreg : Registered a s) (hno : NoOvertake a s) (hs : Inv s) : Inv s' := by
  cases a with
  | change term =>
      cases h
      exact ⟨hs.seq, hs.received, hs.pending, hs.waiting, hs.distinct⟩
  | setCallbacks on_render =>
      cases h
      exact ⟨hs.seq, hs.received, hs.pending, hs.waiting, hs.distinct⟩
  | render i =>
      cases h
      have hon : s.on_render = true := hreg
      cases hp : s.producer i with
      | idle =>
          simp only [renderStep, hp]
          exact snapshot_inv hs hp
      | snapped f =>
          have hsame : (Producer.cloned f).frame = (s.producer i).frame := by
            rw [hp]
            rfl
          have hinv := hs.keep hsame
          simp only [renderStep, hp, hon, if_true] at hinv ⊢
          exact hinv
      | cloned f =>
          have hfirst : ∀ j, ∀ g ∈ (s.producer j).frame, f.seq ≤ g.seq := by
            simpa only [NoOvertake, hp] using hno
          simp only [renderStep, hp]
          exact deliver_inv hs hp (hs.next hp hfirst)
      | inCall =>
          simp only [renderStep, hp]
          exact hs.keep (by rw [hp]; rfl)

/-! ## Overtaking breaks the order -/

/-- An activation with a frame on its way delivers it in at most two steps. -/
theorem exists_delivery {s : State ι τ} {j : ι} {g : Frame τ} (hon : s.on_render = true)
    (hg : g ∈ (s.producer j).frame) :
    ∃ s', (machine ι τ).Steps Registered s s' ∧ s'.received = s.received ++ [g] := by
  have hdeliver : ∀ t : State ι τ, t.on_render = true → t.producer j = .cloned g →
      ∃ t', (machine ι τ).Steps Registered t t' ∧ t'.received = t.received ++ [g] := by
    intro t ht hp
    refine ⟨renderStep j t, .single (a := .render j) ht rfl, ?_⟩
    simp [renderStep, hp]
  cases hp : s.producer j with
  | idle | inCall => simp [hp, Producer.frame] at hg
  | cloned f =>
      obtain rfl : f = g := by simpa [hp, Producer.frame] using hg
      exact hdeliver s hon hp
  | snapped f =>
      obtain rfl : f = g := by simpa [hp, Producer.frame] using hg
      have hclone : (machine ι τ).Steps Registered s (renderStep j s) :=
        .single (a := .render j) hon rfl
      obtain ⟨t, hsteps, ht⟩ := hdeliver (renderStep j s) (by simp [renderStep, hp, hon])
        (by simp [renderStep, hp, hon])
      exact ⟨t, hclone.trans hsteps, by simpa [renderStep, hp] using ht⟩

/-- A frame that overtakes leaves one to be delivered out of order. -/
theorem overtaken {a : Label ι τ} {s s' : State ι τ} (h : step a s = some s')
    (hreg : Registered a s) (hover : ¬ NoOvertake a s) :
    ∃ s'', (machine ι τ).Steps Registered s' s'' ∧ ¬ FramesOk s'' := by
  cases a with
  | change term | setCallbacks on_render => exact absurd trivial hover
  | render i =>
      cases hp : s.producer i with
      | idle | snapped | inCall => simp [NoOvertake, hp] at hover
      | cloned f =>
          simp only [NoOvertake, hp] at hover
          push Not at hover
          rcases hover with ⟨j, g, hg, hlt⟩
          -- the overtaken frame `g` lies with another activation
          have hji : j ≠ i := by
            rintro rfl
            obtain rfl : f = g := by simpa [hp, Producer.frame] using hg
            omega
          cases h
          have hon : (renderStep i s).on_render = true := by
            have hon : s.on_render = true := hreg
            simpa [renderStep, hp] using hon
          have hg' : g ∈ ((renderStep i s).producer j).frame := by
            simpa [renderStep, hp, hji] using hg
          rcases exists_delivery hon hg' with ⟨s'', hsteps, hrec⟩
          refine ⟨s'', hsteps, fun hok => ?_⟩
          have horder := hok.order
          simp only [hrec, renderStep, hp, List.append_assoc] at horder
          have hfg := (List.pairwise_append.1 horder).2.1
          simp at hfg
          omega

/-- Without overtaking the frames are received in order, and after the last
return the latest one was received last. The first overtaking in a run can
always be continued to a state where this fails. -/
theorem frames_ordered (ι τ : Type) [DecidableEq ι] :
    (∀ s, (machine ι τ).Reachable (fun a s => Registered a s ∧ NoOvertake a s) s → FramesOk s) ∧
    (∀ (a : Label ι τ) (s s' : State ι τ), step a s = some s' → Registered a s →
      ¬ NoOvertake a s → ∃ s'', (machine ι τ).Steps Registered s' s'' ∧ ¬ FramesOk s'') := by
  constructor
  · intro s h
    have hinv : Inv s := by
      refine Lts.Machine.init_invariant Inv ?_ ?_ h
      · rintro s ⟨term, on_render, rfl⟩
        exact init_inv term on_render
      · rintro a s s' ⟨hreg, hno⟩ hstep hs
        exact step_inv hstep hreg hno hs
    exact hinv.framesOk
  · intro a s s' hstep hreg hover
    exact overtaken hstep hreg hover

/-- A session on content 0 with `on_render` registered. -/
def watched : State Bool Nat := init 0 true

/-- The pump (`false`) and a host thread (`true`) take a snapshot each. -/
def twoSnapshots : List (Label Bool Nat) :=
  [.change 1, .render false, .change 2, .render true, .render true]

/-- The pump delivers first. -/
def inTurn : List (Label Bool Nat) :=
  List.flatten [twoSnapshots, List.replicate 3 (.render false), List.replicate 2 (.render true)]

/-- The host thread delivers first. -/
def outOfTurn : List (Label Bool Nat) :=
  List.flatten [twoSnapshots, List.replicate 2 (.render true), List.replicate 3 (.render false)]

theorem frames_ordered_inTurn :
    (∃ s, (machine Bool Nat).run watched inTurn = some s ∧ s.received = [⟨0, 1⟩, ⟨1, 2⟩] ∧
      FramesOk s) ∧
    (∃ s s', (machine Bool Nat).run watched twoSnapshots = some s ∧
      (machine Bool Nat).Steps Registered (renderStep true s) s' ∧ ¬ FramesOk s') := by
  constructor
  · have hmeets : (machine Bool Nat).Meets (fun a s => Registered a s ∧ NoOvertake a s)
        watched inTurn := by
      decide +kernel
    have htest : ((machine Bool Nat).run watched inTurn).any
        (fun s => decide (s.received = [⟨0, 1⟩, ⟨1, 2⟩])) = true := by
      decide +kernel
    obtain ⟨s, hrun, hreach, hs⟩ :=
      Lts.Machine.exists_reachable watched inTurn (init_Init _ _) hmeets htest
    exact ⟨s, hrun, of_decide_eq_true hs, (frames_ordered Bool Nat).1 s hreach⟩
  · have htest : ((machine Bool Nat).run watched twoSnapshots).any (fun s => decide
        (Registered (.render true) s ∧ ¬ NoOvertake (.render true) s)) = true := by
      decide +kernel
    cases hrun : (machine Bool Nat).run watched twoSnapshots with
    | none => simp [hrun] at htest
    | some s =>
        rw [hrun] at htest
        rcases of_decide_eq_true htest with ⟨hreg, hover⟩
        obtain ⟨s', hsteps, hbad⟩ :=
          (frames_ordered Bool Nat).2 (.render true) s _ rfl hreg hover
        exact ⟨s, s', rfl, hsteps, hbad⟩

theorem frames_reordered : ¬ ∀ s, (machine Bool Nat).Reachable Registered s → FramesOk s := by
  intro hall
  have hmeets : (machine Bool Nat).Meets Registered watched outOfTurn := by
    decide +kernel
  have htest : ((machine Bool Nat).run watched outOfTurn).any
      (fun s => decide (s.received = [⟨1, 2⟩, ⟨0, 1⟩])) = true := by
    decide +kernel
  obtain ⟨s, -, hreach, hs⟩ :=
    Lts.Machine.exists_reachable watched outOfTurn (init_Init _ _) hmeets htest
  have hreceived : s.received = [⟨1, 2⟩, ⟨0, 1⟩] := of_decide_eq_true hs
  have horder := (hall s hreach).order
  rw [hreceived] at horder
  simp at horder

end RataShell.Render
