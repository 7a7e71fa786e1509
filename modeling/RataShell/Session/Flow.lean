import RataShell.Session.Deadlock
import RataShell.Session.Delivery

/-!
# From the shell to the last frame

The bytes that the shell writes, while the session is not destroyed and its callbacks
stay as they are.

* `Flow`: where they are, between the pipe and the channel.
* `LoopFrame`: how the frames follow the content, while the pump is in its loop.
* `KeptInv.shown`: once they are all taken, they are all parsed, and the last frame is
  the content.
-/

namespace RataShell.Session

open Feed

variable {τ : Type} {advance : τ → List UInt8 → τ × List Event} {s s' : State τ} {t₀ : τ}
  {wrote : List UInt8} {cbs : Callbacks}

/-- The callbacks are `cbs`, and the host does not destroy the session. -/
def Kept (cbs : Callbacks) : Lts.StepCond (State τ) Label := fun _ s =>
  s.callbacks = cbs ∧ s.drop = .notStarted

instance (cbs : Callbacks) (a : Label) (s : State τ) : Decidable (Kept cbs a s) :=
  inferInstanceAs (Decidable (_ ∧ _))

/-! ## Bytes -/

/-- The bytes that a step writes into the pipe. -/
def Label.written : Label → List UInt8
  | .shellWrite bytes => bytes
  | _ => []

/-- The bytes read and not yet sent. -/
def Reader.inHand : Reader → List UInt8
  | .send (.bytes buf) => buf
  | _ => []

/-- The reader has found the end of the output. -/
def Reader.ended : Reader → Bool
  | .send .eof | .done => true
  | _ => false

/-- What the shell wrote is in the channel or has left it, is in the reader's hand, or
in the pipe. The `Eof` comes last. -/
structure Flow (wrote : List UInt8) (s : State τ) : Prop where
  bytes : wrote = (chunks s.sent).flatten ++ s.reader.inHand ++ s.unread
  ended : s.reader.ended = true → s.unread = [] ∧ (s.closed = true ∨ s.outputClosed = true)
  eof : .eof ∈ s.sent → s.reader = .done
  beforeEof : beforeEof s.sent = chunks s.sent

theorem init_flow (t₀ : τ) (title : String) (cbs : Callbacks) (code : Int32) :
    Flow [] (init t₀ title cbs code) := by
  constructor <;> simp [init, chunks, beforeEof, Reader.inHand, Reader.ended]

theorem beforeEof_append {ms : List IoEvent} (hms : .eof ∉ ms) (ns : List IoEvent) :
    beforeEof (ms ++ ns) = chunks ms ++ beforeEof ns := by
  have hall : ∀ m ∈ ms, decide (m ≠ IoEvent.eof) = true := by
    intro m hm
    rw [decide_eq_true_eq]
    rintro rfl
    exact hms hm
  rw [beforeEof, List.takeWhile_append_of_pos hall, chunks_append]
  rfl

theorem readerStep_flow {n : Nat} (h : readerStep n s = some s') (hd : s.drop = .notStarted)
    (hs : Flow wrote s) : Flow wrote s' := by
  rcases hs with ⟨hbytes, hended, heof, hbefore⟩
  cases readerStep_move h with
  | readEof hr hat =>
      simp only [State.atEof, Bool.and_eq_true, List.isEmpty_iff, Bool.or_eq_true] at hat
      refine ⟨?_, fun _ => hat, fun hmem => ?_, hbefore⟩
      · rw [hr] at hbytes
        exact hbytes
      · rw [hr] at heof
        cases heof hmem
  | readBytes hr hpos hlen =>
      refine ⟨?_, fun hended => ?_, fun hmem => ?_, hbefore⟩
      · rw [hbytes, hr]
        simp [Reader.inHand]
      · cases hended
      · rw [hr] at heof
        cases heof hmem
  | @sendBytes buf hr hroom =>
      have hno : .eof ∉ s.sent := fun hmem => by
        rw [hr] at heof
        cases heof hmem
      refine ⟨?_, fun hended => ?_, fun hmem => ?_, ?_⟩
      · rw [hbytes, hr]
        simp [Reader.inHand]
      · cases hended
      · simp [hno] at hmem
      · rw [beforeEof_append hno, chunks_append]
        rfl
  | sendEof hr hroom =>
      have hno : .eof ∉ s.sent := fun hmem => by
        rw [hr] at heof
        cases heof hmem
      rw [hr] at hbytes hended
      refine ⟨?_, fun _ => hended rfl, fun _ => rfl, ?_⟩
      · rw [hbytes]
        simp [Reader.inHand]
      · rw [beforeEof_append hno, chunks_append]
        rfl
  | gone hr hgone =>
      -- only `Drop` gives up the other receiver
      simp [State.receiversGone, hd] at hgone

theorem step_flow {a : Label} (h : step advance a s = some s') (hph : Phases s)
    (hd : s.drop = .notStarted) (hs : Flow wrote s) : Flow (wrote ++ a.written) s' := by
  have hclosed := step_closed h hph
  -- the steps of the others leave the two ends of the pipe alone
  have hsame : a.written = [] → s'.reader = s.reader → s'.unread = s.unread →
      s'.sent = s.sent → (s.outputClosed = true → s'.outputClosed = true) →
      Flow (wrote ++ a.written) s' := by
    intro ha hreader hunread hsent hout
    refine ⟨?_, ?_, ?_, ?_⟩
    · rw [ha, List.append_nil, hreader, hunread, hsent]
      exact hs.bytes
    · rw [hreader, hunread]
      exact fun hended => ⟨(hs.ended hended).1, (hs.ended hended).2.imp hclosed hout⟩
    · rw [hsent, hreader]
      exact hs.eof
    · rw [hsent]
      exact hs.beforeEof
  cases a with
  | reader n =>
      rw [show (Label.reader n).written = [] from rfl, List.append_nil]
      exact readerStep_flow h hd hs
  | shellWrite bytes =>
      cases outside_move rfl h with
      | shellWrite hopen =>
          refine ⟨?_, fun hended => absurd (hs.ended hended).2 hopen, hs.eof, hs.beforeEof⟩
          rw [hs.bytes]
          simp [Label.written]
  | closeOutput =>
      cases outside_move rfl h
      exact hsame rfl rfl rfl rfl fun _ => rfl
  | drop => exact absurd hd (dropStep_drop h).1
  | start =>
      rcases startStep_frame h with ⟨_, _, _, _, _, _, rfl⟩
      exact hsame rfl rfl rfl rfl id
  | pump =>
      rcases pumpStep_frame h with ⟨_, _, _, _, _, _, _, _, _, _, _, _, _, _, rfl⟩
      exact hsame rfl rfl rfl rfl id
  | watcher =>
      rcases watcherStep_frame h with ⟨_, _, _, _, rfl⟩
      exact hsame rfl rfl rfl rfl id
  | writer =>
      rcases writerStep_frame h with ⟨_, _, _, rfl⟩
      exact hsame rfl rfl rfl rfl id
  | beginDrop on =>
      rcases beginDropStep_frame h with ⟨-, -, -, rfl⟩
      exact hsame rfl rfl rfl rfl id
  | sendBytes bytes =>
      cases outside_move rfl h
      rcases sendBytes_frame bytes s with ⟨_, hsend, -⟩
      rw [hsend] at hsame ⊢
      exact hsame rfl rfl rfl rfl id
  | _ =>
      cases outside_move rfl h
      exact hsame rfl rfl rfl rfl id

/-! ## Frames -/

/-- In the loop a snapshot is of the content, and so is the last frame once the pump
waits again. -/
def Pump.LoopFrame (fed : List UInt8) (term : τ) (last : Option τ) : Pump τ → Prop
  | .unspawned => fed = []
  | .recv => fed = [] ∨ last = some term
  | .render snap _ => snap = term
  | .call c (.rendered _) => c = .render term
  | .inCall (.rendered _) => last = some term
  | _ => True

theorem lookup_loopFrame {c : HostCall τ} {k : Resume} (hk : ∀ b, k ≠ .rendered b)
    (fed : List UInt8) (term : τ) (last : Option τ) :
    (s.lookup c k).LoopFrame fed term last := by
  unfold State.lookup
  split
  · cases k with
    | rendered b => exact absurd rfl (hk b)
    | _ => trivial
  · cases k with
    | rendered b => exact absurd rfl (hk b)
    | _ => trivial

theorem pumpStep_loopFrame (h : pumpStep advance s = some s')
    (hcbs : s.callbacks.on_render = true)
    (hs : s.pump.LoopFrame s.fed s.term s.lastFrame) :
    s'.pump.LoopFrame s'.fed s'.term s'.lastFrame := by
  cases pumpStep_move h with
  | snapshot => rfl
  | dispatchCall => exact lookup_loopFrame (by simp) _ _ _
  | eofRender | notifyExit => exact lookup_loopFrame (by simp) _ _ _
  | @render snap saw_eof hp =>
      have hsnap : snap = s.term := by
        rw [hp] at hs
        exact hs
      have hlook : s.lookup (.render snap) (.rendered saw_eof) =
          .call (.render snap) (.rendered saw_eof) := if_pos hcbs
      rw [hlook, hsnap]
      rfl
  | @call c k hp =>
      rw [hp] at hs
      cases k with
      | rendered b =>
          have hc : c = .render s.term := hs
          simp [Pump.LoopFrame, State.lastFrame, hc, HostCall.frame]
      | _ => trivial
  | @inCall k hp =>
      rw [hp] at hs
      cases k with
      | rendered b =>
          cases b with
          | true => trivial
          | false => exact .inr hs
      | _ => trivial
  | _ => trivial

/-- The watcher's callback is no frame. -/
theorem Beside.lastFrame {a : Label} (h : Beside a s s') : s'.lastFrame = s.lastFrame := by
  rcases h.calls with ⟨codes, hcalls⟩
  have hno : (codes.map HostCall.exit : List (HostCall τ)).filterMap HostCall.frame = [] := by
    simp [HostCall.frame]
  simp only [State.lastFrame, hcalls, List.filterMap_append, hno, List.append_nil]

theorem step_loopFrame {a : Label} (h : step advance a s = some s') (hph : Phases s)
    (hcbs : s.callbacks.on_render = true) (hs : s.pump.LoopFrame s.fed s.term s.lastFrame) :
    s'.pump.LoopFrame s'.fed s'.term s'.lastFrame := by
  by_cases ha : a = .pump
  · subst ha
    exact pumpStep_loopFrame h hcbs hs
  · have hbeside := step_beside ha h hph
    rw [hbeside.term, hbeside.fed, hbeside.lastFrame]
    rcases hbeside.pump with hp | ⟨hp, hp'⟩
    · rwa [hp]
    · rw [hp] at hs
      rw [hp']
      exact .inl hs

/-! ## Runs -/

/-- What every state keeps while the callbacks are kept. -/
structure KeptInv (advance : τ → List UInt8 → τ × List Event) (t₀ : τ) (wrote : List UInt8)
    (s : State τ) : Prop where
  phases : Phases s
  stream : StreamInv advance t₀ s
  flow : Flow wrote s
  loop : s.pump.LoopFrame s.fed s.term s.lastFrame
  final : s.pump.FinalFrame s.term s.lastFrame

theorem init_keptInv (t₀ : τ) (title : String) (cbs : Callbacks) (code : Int32) :
    KeptInv advance t₀ [] (init t₀ title cbs code) where
  phases := init_phases (init_Init t₀ title cbs code)
  stream := ⟨init_taken t₀ title cbs code, init_parsed t₀ title cbs code,
    init_dispatched t₀ title cbs code⟩
  flow := init_flow t₀ title cbs code
  loop := rfl
  final := trivial

theorem step_keptInv {a : Label} (h : step advance a s = some s') (hkept : Kept cbs a s)
    (hrender : cbs.on_render = true) (hs : KeptInv advance t₀ wrote s) :
    KeptInv advance t₀ (wrote ++ a.written) s' := by
  rcases hkept with ⟨hcbs, hd⟩
  have hon : s.callbacks.on_render = true := by rw [hcbs, hrender]
  rcases hs with ⟨hph, ⟨htaken, hparsed, hdispatched⟩, hflow, hloop, hfinal⟩
  exact ⟨step_phases h hph,
    ⟨step_taken h hph htaken, step_parsed h hph hparsed, step_dispatched h hph hdispatched⟩,
    step_flow h hph hd hflow, step_loopFrame h hph hon hloop,
    step_finalFrame h hph htaken hon hfinal⟩

/-- Nothing that was written is on its way to the pump, which waits or has ended. -/
structure State.AtRest (s : State τ) : Prop where
  unread : s.unread = []
  reader : s.reader.inHand = []
  pump : s.pump = .recv ∧ s.chan = [] ∨ s.pump = .done

/-- The pump has nothing to take. -/
def Pump.waits (chan : List IoEvent) : Pump τ → Bool
  | .recv => chan.isEmpty
  | .done => true
  | _ => false

theorem Pump.waits_iff {p : Pump τ} {chan : List IoEvent} :
    p.waits chan = true ↔ p = .recv ∧ chan = [] ∨ p = .done := by
  cases p <;> simp [Pump.waits]

instance (s : State τ) : Decidable s.AtRest :=
  decidable_of_iff (s.unread = [] ∧ s.reader.inHand = [] ∧ s.pump.waits s.chan = true)
    ⟨fun h => ⟨h.1, h.2.1, Pump.waits_iff.1 h.2.2⟩,
      fun h => ⟨h.unread, h.reader, Pump.waits_iff.2 h.pump⟩⟩

/-- At rest all that was written is parsed, and the last frame is of what this made of
the content. -/
theorem KeptInv.shown (hs : KeptInv advance t₀ wrote s) (hrest : s.AtRest) :
    (chunks s.received).flatten = wrote ∧ s.term = (feed advance t₀ (chunks s.received)).1 ∧
      (wrote ≠ [] → s.lastFrame = some s.term) := by
  have hsent : wrote = (chunks s.sent).flatten := by
    have hbytes := hs.flow.bytes
    rwa [hrest.reader, hrest.unread, List.append_nil, List.append_nil] at hbytes
  have hfed := hs.stream.parsed.fed
  have hterm := congrArg Prod.fst hs.stream.parsed.term
  rcases hrest.pump with ⟨hp, hchan⟩ | hp
  · rw [hp] at hfed hterm
    have hreceived : s.sent = s.received := by
      rw [hs.stream.taken.sent, hchan, List.append_nil]
    rw [hreceived] at hsent
    refine ⟨hsent.symm, hterm.symm, fun hne => ?_⟩
    have hloop := hs.loop
    rw [hp] at hloop
    refine hloop.resolve_left fun hnone => hne ?_
    rw [hsent, ← hfed, hnone]
    rfl
  · have hexit : s.pump.exiting = true := by
      rw [hp]
      rfl
    have hreceived : chunks s.sent = chunks s.received := by
      rw [← hs.flow.beforeEof, hs.stream.taken.beforeEof_sent, if_pos (exiting_views hexit).1,
        List.append_nil]
    rw [hp] at hterm
    rw [hreceived] at hsent
    refine ⟨hsent.symm, hterm.symm, fun _ => ?_⟩
    have hfinal := hs.final
    rwa [hp] at hfinal

end RataShell.Session
