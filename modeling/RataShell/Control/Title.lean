import Mathlib.Data.List.Induction
import Mathlib.Tactic.Common
import RataShell.Lib.Machine
import RataShell.Control.Text

/-!
# The title

The terminal keeps the title in `current_title`, the control in `FTitle`. Between
them the pump calls `on_title`, and `RataTitleProc` leaves the text in
`FPendingTitle` and posts `WM_RATA_TITLE`; an empty text it drops.

* `Agrees`: `Title` and the last `OnTitleChange` are the title of the session.
* `title_agrees_iff`: when they are, once all is dispatched and processed.
* `reset_missed`: a title that is reset.
-/

namespace RataShell.Control.Titles

open Input (Text)

/-! ## Events -/

/-- The events of `drain_events`, with those that are no titles taken together. -/
inductive Event where
  | title (text : String)
  | resetTitle
  | other
deriving DecidableEq, Repr

/-- What `current_title` becomes, and what `on_title` gets. -/
def Event.text : Event → Option String
  | .title text => some text
  | .resetTitle => some ""
  | .other => none

/-- The UTF-16 of a character. -/
def utf16 (c : Char) : Text :=
  if c.toNat < 0x10000 then [.ofNat c.toNat]
  else [.ofNat (0xD800 + (c.toNat - 0x10000) / 1024), .ofNat (0xDC00 + (c.toNat - 0x10000) % 1024)]

/-- `TEncoding.UTF8.GetString`, of the UTF-8 of `text`. -/
def getString (text : String) : Text := text.toList.flatMap utf16

/-- What `RataTitleProc` makes of the event; it exits when `ALen` is 0. -/
def Event.received (e : Event) : Option Text :=
  (e.text.filter fun text => text.utf8ByteSize ≠ 0).map getString

/-- The value after writes. -/
def latest {α β : Type} (write : α → Option β) (b : β) (l : List α) : β :=
  l.foldl (fun b a => (write a).getD b) b

/-! ## The machine -/

/-- The terminal, the pump and the control, with the events of the session so far and
`FPendingTitle` at its start. -/
structure State where
  sink : List Event
  currentTitle : String
  batch : List Event
  posting : Bool
  pendingTitle : Text
  messages : Nat
  title : Text
  lastChange : Option Text
  emitted : List Event
  left : Text
deriving DecidableEq, Repr

/-- An event is emitted, the pump drains the sink, calls `on_title` for the next event
and posts its message, `WMRataTitle`, and `Restart`. -/
inductive Label where
  | emit (e : Event)
  | drainEvents
  | onTitle
  | post
  | wmRataTitle
  | restart
deriving DecidableEq, Repr

/-- `drain_events`, when the last batch has been dispatched. -/
def drainEvents (s : State) : Option State :=
  if s.batch = [] ∧ s.posting = false then
    some { s with
      sink := []
      currentTitle := latest Event.text s.currentTitle s.sink
      batch := s.sink }
  else none

/-- The next event of the batch, and `RataTitleProc` up to its `PostMessage`. -/
def onTitle (s : State) : Option State :=
  match s.batch with
  | [] => none
  | e :: batch =>
      if s.posting then none
      else
        match e.received with
        | none => some { s with batch := batch }
        | some text => some { s with batch := batch, pendingTitle := text, posting := true }

def step (a : Label) (s : State) : Option State :=
  match a with
  | .emit e => some { s with sink := s.sink ++ [e], emitted := s.emitted ++ [e] }
  | .drainEvents => drainEvents s
  | .onTitle => onTitle s
  | .post =>
      if s.posting then some { s with posting := false, messages := s.messages + 1 } else none
  | .wmRataTitle =>
      if 0 < s.messages then
        some { s with
          title := s.pendingTitle
          lastChange := some s.pendingTitle
          messages := s.messages - 1 }
      else none
  | .restart =>
      -- `Stop` waits for the call of the pump, and drops what it has not dispatched
      if s.posting then none
      else some { s with sink := [], currentTitle := "", batch := [], emitted := [],
                         left := s.pendingTitle }

/-- A new control, with a session. -/
def started : State where
  sink := []
  currentTitle := ""
  batch := []
  posting := false
  pendingTitle := []
  messages := 0
  title := []
  lastChange := none
  emitted := []
  left := []

def machine : Lts.Machine State Label where
  Init s := s = started
  step := step

/-- All events are dispatched and all messages processed. -/
def Quiet (s : State) : Prop :=
  s.sink = [] ∧ s.batch = [] ∧ s.posting = false ∧ s.messages = 0

/-- `Title` is that of the session, and so is what the last `OnTitleChange` brought. -/
def Agrees (s : State) : Prop :=
  s.title = getString s.currentTitle ∧ ∀ text ∈ s.lastChange, text = getString s.currentTitle

/-- The last title event has a text, or the control has never got one. -/
def Named (s : State) : Prop :=
  (∃ text ∈ (s.emitted.filterMap Event.text).getLast?, text ≠ "") ∨
    (∀ text ∈ s.emitted.filterMap Event.text, text = "") ∧ s.left = []

instance (s : State) : Decidable (Quiet s) :=
  inferInstanceAs (Decidable (_ ∧ _ ∧ _ ∧ _))

instance (s : State) : Decidable (Agrees s) :=
  inferInstanceAs (Decidable (_ ∧ ∀ text ∈ s.lastChange, text = getString s.currentTitle))

/-! ## Writes -/

section Latest

variable {α β : Type} {write : α → Option β} {b : β}

@[simp] theorem latest_nil : latest write b [] = b := rfl

theorem latest_append (l l' : List α) :
    latest write b (l ++ l') = latest write (latest write b l) l' :=
  List.foldl_append

theorem latest_concat (l : List α) (a : α) :
    latest write b (l ++ [a]) = (write a).getD (latest write b l) :=
  latest_append l [a]

end Latest

theorem getString_ne_nil {text : String} (h : text ≠ "") : getString text ≠ [] := by
  intro hnil
  cases hlist : text.toList with
  | nil => exact h (String.toList_eq_nil_iff.1 hlist)
  | cons c cs =>
      rw [getString, hlist, List.flatMap_cons, List.append_eq_nil_iff] at hnil
      have hc : utf16 c ≠ [] := by
        unfold utf16
        split <;> simp
      exact hc hnil.1

/-- An event with a text is received. -/
theorem received_eq {e : Event} {text : String} (he : e.text = some text) :
    e.received = if text = "" then none else some (getString text) := by
  by_cases h : text = "" <;> simp [Event.received, he, String.utf8ByteSize_eq_zero_iff, h]

theorem received_none {e : Event} (he : e.text = none) : e.received = none := by
  simp [Event.received, he]

/-- Nothing has been received but empty texts. -/
theorem latest_received_eq_nil (left : Text) (l : List Event) :
    latest Event.received left l = [] ↔
      (∀ text ∈ l.filterMap Event.text, text = "") ∧ left = [] := by
  induction l using List.reverseRecOn with
  | nil => simp
  | append_singleton l e ih =>
      rw [latest_concat]
      cases he : e.text with
      | none => simpa [received_none he, he, or_imp, forall_and] using ih
      | some text =>
          by_cases htext : text = ""
          · simpa [received_eq he, he, htext, or_imp, forall_and] using ih
          · have hne := getString_ne_nil htext
            simp [received_eq he, he, htext, hne, or_imp, forall_and]

/-- The text received last is the last one of all when that is not empty, or none has
been received. -/
theorem latest_received_iff (left : Text) (l : List Event) :
    latest Event.received left l = getString (latest Event.text "" l) ↔
      (∃ text ∈ (l.filterMap Event.text).getLast?, text ≠ "") ∨
        (∀ text ∈ l.filterMap Event.text, text = "") ∧ left = [] := by
  induction l using List.reverseRecOn with
  | nil => simp [getString]
  | append_singleton l e ih =>
      rw [latest_concat, latest_concat]
      cases he : e.text with
      | none => simpa [received_none he, he, or_imp, forall_and] using ih
      | some text =>
          by_cases htext : text = ""
          · -- the session has the empty title, the control has missed it
            have hnil := latest_received_eq_nil left l
            simpa [received_eq he, he, htext, getString, or_imp, forall_and] using hnil
          · simp [received_eq he, he, htext]

/-! ## The two titles over a run -/

/-- `current_title` is what the drained events wrote, `FPendingTitle` what the
dispatched ones did, and without a message the control has taken that. -/
structure Written (s : State) : Prop where
  events : ∃ done, s.emitted = done ++ s.batch ++ s.sink ∧
    s.currentTitle = latest Event.text "" (done ++ s.batch) ∧
    s.pendingTitle = latest Event.received s.left done
  taken : s.posting = false → s.messages = 0 →
    s.title = s.pendingTitle ∧ ∀ text ∈ s.lastChange, text = s.pendingTitle

theorem drainEvents_written {s s' : State} (h : drainEvents s = some s') (hs : Written s) :
    Written s' := by
  unfold drainEvents at h
  split at h
  · rename_i hidle
    cases h
    rcases hs.events with ⟨done, hemitted, hcurrent, hpending⟩
    rw [hidle.1, List.append_nil] at hemitted hcurrent
    refine ⟨⟨done, ?_, ?_, hpending⟩, hs.taken⟩
    · simpa using hemitted
    · rw [latest_append, ← hcurrent]
  · cases h

theorem onTitle_written {s s' : State} (h : onTitle s = some s') (hs : Written s) :
    Written s' := by
  unfold onTitle at h
  split at h
  · cases h
  · rename_i e batch hbatch
    split at h
    · cases h
    · rcases hs.events with ⟨done, hemitted, hcurrent, hpending⟩
      rw [hbatch] at hemitted hcurrent
      -- the event goes over to those that are done
      have hdone : s.emitted = done ++ [e] ++ batch ++ s.sink := by simpa using hemitted
      have hwritten : s.currentTitle = latest Event.text "" (done ++ [e] ++ batch) := by
        simpa using hcurrent
      split at h
      · rename_i hnone
        cases h
        refine ⟨⟨done ++ [e], hdone, hwritten, ?_⟩, hs.taken⟩
        rw [latest_concat, hnone, hpending]
        rfl
      · -- its message is yet to be posted
        rename_i text hsome
        cases h
        refine ⟨⟨done ++ [e], hdone, hwritten, ?_⟩, fun hposting => by cases hposting⟩
        rw [latest_concat, hsome]
        rfl

theorem step_written {a : Label} {s s' : State} (h : step a s = some s') (hs : Written s) :
    Written s' := by
  cases a with
  | emit e =>
      cases h
      rcases hs.events with ⟨done, hemitted, hcurrent, hpending⟩
      exact ⟨⟨done, by simp [hemitted], hcurrent, hpending⟩, hs.taken⟩
  | drainEvents => exact drainEvents_written h hs
  | onTitle => exact onTitle_written h hs
  | post =>
      simp only [step] at h
      split at h
      · cases h
        exact ⟨hs.events, fun _ hmessages => by cases hmessages⟩
      · cases h
  | wmRataTitle =>
      simp only [step] at h
      split at h
      · -- whichever event the message was posted for, the mailbox has the last text
        cases h
        refine ⟨hs.events, fun _ _ => ⟨rfl, fun text htext => ?_⟩⟩
        exact (Option.mem_some_iff.1 htext).symm
      · cases h
  | restart =>
      simp only [step] at h
      split at h
      · cases h
      · cases h
        exact ⟨⟨[], rfl, rfl, rfl⟩, hs.taken⟩

theorem started_written : Written started where
  events := ⟨[], rfl, rfl, rfl⟩
  taken _ _ := ⟨rfl, by simp [started]⟩

/-- Once all is dispatched and processed, the two titles agree exactly when the last
title event has a text, or none with a text has come to the control at all. -/
theorem title_agrees_iff {s : State} (hs : machine.Reachable (fun _ _ => True) s)
    (hquiet : Quiet s) :
    Agrees s ↔ Named s := by
  have hwritten : Written s := by
    refine Lts.Machine.init_invariant Written ?_ ?_ hs
    · rintro s rfl
      exact started_written
    · exact fun a s s' _ hstep hw => step_written hstep hw
  rcases hquiet with ⟨hsink, hbatch, hposting, hmessages⟩
  rcases hwritten.events with ⟨done, hemitted, hcurrent, hpending⟩
  rcases hwritten.taken hposting hmessages with ⟨htitle, hlast⟩
  rw [hsink, hbatch, List.append_nil, List.append_nil] at hemitted
  rw [hbatch, List.append_nil, ← hemitted] at hcurrent
  rw [← hemitted] at hpending
  have hagrees : Agrees s ↔ s.pendingTitle = getString s.currentTitle := by
    constructor
    · intro h
      exact htitle.symm.trans h.1
    · intro h
      exact ⟨htitle.trans h, fun text htext => (hlast text htext).trans h⟩
  rw [hagrees, hcurrent, hpending]
  exact latest_received_iff s.left s.emitted

/-- Two titles are dispatched before the control looks at the first. -/
def renamed : List Label :=
  [.emit (.title "b"), .emit (.title "a"), .drainEvents, .onTitle, .post, .onTitle, .post,
   .wmRataTitle, .wmRataTitle]

/-- The second of two titles is that of the control. -/
theorem title_kept : ∃ s, machine.Reachable (fun _ _ => True) s ∧ Quiet s ∧
    s.emitted = [.title "b", .title "a"] ∧ Agrees s := by
  have hinit : machine.Init started := rfl
  have hmeets : machine.Meets (fun _ _ => True) started renamed := by
    decide +kernel
  have htest : (machine.run started renamed).any
      (fun s => decide (Quiet s ∧ s.emitted = [.title "b", .title "a"])) = true := by
    decide +kernel
  rcases Lts.Machine.exists_reachable _ _ hinit hmeets htest with ⟨s, -, hs, h⟩
  rcases of_decide_eq_true h with ⟨hquiet, hemitted⟩
  refine ⟨s, hs, hquiet, hemitted, (title_agrees_iff hs hquiet).2 (.inl ⟨"a", ?_, by decide⟩)⟩
  simp [hemitted, Event.text]

/-- The shell sets a title and resets it. -/
def titleReset : List Label :=
  [.emit (.title "a"), .drainEvents, .onTitle, .post, .wmRataTitle, .emit .resetTitle, .drainEvents,
   .onTitle]

/-- The control goes on with the title that has been reset. -/
theorem reset_missed :
    ∃ s, machine.Reachable (fun _ _ => True) s ∧ Quiet s ∧ s.currentTitle = "" ∧
      s.title = getString "a" ∧ ¬ Agrees s := by
  have hinit : machine.Init started := rfl
  have hmeets : machine.Meets (fun _ _ => True) started titleReset := by
    decide +kernel
  have htest : (machine.run started titleReset).any (fun s =>
      decide (Quiet s ∧ s.currentTitle = "" ∧ s.title = getString "a" ∧ ¬ Agrees s)) = true := by
    decide +kernel
  rcases Lts.Machine.exists_reachable _ _ hinit hmeets htest with ⟨s, -, hs, h⟩
  exact ⟨s, hs, of_decide_eq_true h⟩

end RataShell.Control.Titles
