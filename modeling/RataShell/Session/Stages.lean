import RataShell.Session.Runs

/-!
# The runs of one session and where `start` is

* `Runs`: of all runs the newest one alone is not settled, once it has stored `alive`.
* `Stage`: the runs and the fields at each point of a call of `start`, when there is no
  other one past its guard.
* `startStep_stage`: what each step of `start` keeps of both.
-/

namespace RataShell.Starts

open Session (Callbacks Event)

variable {κ τ : Type}

/-! ## All runs -/

/-- What holds of the newest run: at most one thread reports its exit, and before its
child has ended it is live. -/
structure Newest (alive : Bool) (r : Session.State τ) : Prop where
  tokens : (if r.start = .storeAlive then 1 else 0) + alive.toNat + spent r ≤ 1
  live : r.child = none → Live alive r

/-- What holds of the run `i` of `n`. -/
structure RunOk (alive : Bool) (n i : Nat) (r : Session.State τ) : Prop where
  inv : RunInv r
  spent : spent r ≤ 1
  older : i + 1 < n → r.start = .returned
  newest : i + 1 = n → Newest alive r

/-- Of all runs, those before one that has stored `alive` are settled. -/
structure Runs (alive : Bool) (runs : List (Session.State τ)) : Prop where
  ok : ∀ i r, runs[i]? = some r → RunOk alive runs.length i r
  settled : ∀ (i j : Nat) (r q : Session.State τ), i < j → runs[i]? = some r →
    runs[j]? = some q → q.start ≠ .storeAlive → Settled r

section Runs

variable {advance : τ → List UInt8 → τ × List Event} {s s' : State κ τ} {a : Session.Label}
  {i : Nat} {r : Session.State τ}

theorem stepRun_eq {f : Session.State τ → Option (Session.State τ)}
    (h : s.stepRun i f = some s') : ∃ r r', s.runs[i]? = some r ∧ f (s.shared.load r) = some r' ∧
      s' = { s with shared := .ofRun r', runs := s.runs.set i r' } := by
  unfold State.stepRun at h
  split at h
  · cases h
  · split at h
    · cases h
    · cases h
      exact ⟨_, _, ‹_›, ‹_›, rfl⟩

/-- What a list has where an element was set. -/
theorem getElem?_set_cases {α : Type} {l : List α} {i j : Nat} {x y : α}
    (h : (l.set i x)[j]? = some y) : (j = i ∧ y = x) ∨ j ≠ i ∧ l[j]? = some y := by
  rw [List.getElem?_set] at h
  split at h
  · split at h
    · cases h
      exact .inl ⟨by omega, rfl⟩
    · cases h
  · exact .inr ⟨by omega, h⟩

theorem lt_length {j : Nat} {q : Session.State τ} (h : s.runs[j]? = some q) :
    j < s.runs.length := by
  rcases List.getElem?_eq_some_iff.1 h with ⟨hlt, -⟩
  exact hlt

/-- Before the newest run has stored `alive` it is down. -/
theorem Runs.alive_down (hs : Runs s.shared.alive s.runs) (hr : s.runs[i]? = some r)
    (hst : r.start = .storeAlive) : s.shared.alive = false := by
  have hok := hs.ok i r hr
  have hlt := lt_length hr
  have hlast : i + 1 = s.runs.length := by
    by_contra hne
    have hreturned := hok.older (by omega)
    rw [hst] at hreturned
    cases hreturned
  have htokens := (hok.newest hlast).tokens
  rw [if_pos hst] at htokens
  cases halive : s.shared.alive
  · rfl
  · simp [halive] at htokens
    omega

/-- A run that is not the newest one leaves `alive`. -/
theorem Runs.run_old (hs : Runs s.shared.alive s.runs) (hr : s.runs[i]? = some r)
    (hi : i + 1 < s.runs.length) {r' : Session.State τ}
    (h : Session.step advance a (s.shared.load r) = some r') (ha : inRun a = true) :
    r'.alive = s.shared.alive := by
  have hlast : s.runs.length - 1 < s.runs.length := by omega
  have hq := List.getElem?_eq_getElem hlast
  by_cases hst : (s.runs[s.runs.length - 1]).start = .storeAlive
  · have hdown := hs.alive_down hq hst
    rcases (step_run h ha).alive with halive | halive
    · exact halive
    · rw [halive, hdown]
  · exact (step_calm h ha (hs.settled i _ r _ (by omega) hr hq hst)).alive

theorem tokens_eq (r : Session.State τ) : r.tokens =
    (if r.start = .storeAlive then 1 else 0) + r.alive.toNat + spent r := by
  simp only [Session.State.tokens, spent]
  omega

theorem tokens_load (sh : Shared τ) (r : Session.State τ) : (sh.load r).tokens =
    (if r.start = .storeAlive then 1 else 0) + sh.alive.toNat + spent r :=
  tokens_eq (sh.load r)

/-- The tokens of a run that is the newest one, or that comes before one which has not
stored `alive`. -/
theorem Runs.tokens_le (hs : Runs s.shared.alive s.runs) (hr : s.runs[i]? = some r)
    (hdown : i + 1 < s.runs.length → s.shared.alive = false) : (s.shared.load r).tokens ≤ 1 := by
  have hok := hs.ok i r hr
  have hlt := lt_length hr
  rw [tokens_load]
  -- a run that is not the newest one has nothing but its own calls
  by_cases hlast : i + 1 = s.runs.length
  · exact (hok.newest hlast).tokens
  · have hspent := hok.spent
    rw [hdown (by omega), hok.older (by omega)]
    simpa using hspent

theorem Runs.run_spent (hs : Runs s.shared.alive s.runs) (hr : s.runs[i]? = some r)
    {r' : Session.State τ} (h : Session.step advance a (s.shared.load r) = some r')
    (ha : inRun a = true) :
    spent r' ≤ 1 ∧ (i + 1 = s.runs.length → r'.tokens ≤ 1) := by
  have hok := hs.ok i r hr
  have hphases := (hok.inv.load s.shared).phases_of fun hst => hs.alive_down hr hst
  have hle := (Session.step_tokens h hphases).1
  by_cases hdown : i + 1 < s.runs.length → s.shared.alive = false
  · have htokens := hle.trans (hs.tokens_le hr hdown)
    refine ⟨?_, fun _ => htokens⟩
    rw [tokens_eq] at htokens
    omega
  · -- a later run has stored `alive`
    rw [Classical.not_imp, Bool.not_eq_false] at hdown
    rcases hdown with ⟨hi, hup⟩
    have hlast : s.runs.length - 1 < s.runs.length := by omega
    have hq := List.getElem?_eq_getElem hlast
    have hst : (s.runs[s.runs.length - 1]).start ≠ .storeAlive := by
      intro hst
      rw [hs.alive_down hq hst] at hup
      cases hup
    have hcalm := step_calm h ha (hs.settled i _ r _ (by omega) hr hq hst)
    exact ⟨hcalm.spent.trans hok.spent, fun heq => by omega⟩

/-- The steps of a run keep the runs, where no output ends before its child. -/
theorem Runs.run (hs : Runs s.shared.alive s.runs)
    (h : s.stepRun i (Session.step advance a) = some s') (ha : inRun a = true)
    (hout : a = .closeOutput → ∀ r, s.runs[i]? = some r → r.child ≠ none) :
    Runs s'.shared.alive s'.runs := by
  rcases stepRun_eq h with ⟨r, r', hr, hr', rfl⟩
  have hok := hs.ok i r hr
  have hlt := lt_length hr
  have hrun := step_run hr' ha
  have hinv := (hok.inv.load s.shared).run hr' ha fun hst => hs.alive_down hr hst
  have hspent := hs.run_spent hr hr' ha
  constructor
  · intro j q hq
    rw [List.length_set]
    rcases getElem?_set_cases hq with ⟨rfl, rfl⟩ | ⟨hne, hq⟩
    · -- the run that takes the step
      refine ⟨hinv, hspent.1, fun hj => ?_, fun hj => ⟨?_, fun hchild => ?_⟩⟩
      · rw [hrun.start]
        exact hok.older hj
      · have htokens := hspent.2 hj
        rwa [tokens_eq] at htokens
      · have hnone := hrun.child hchild
        have hlive := (hok.newest hj).live hnone
        exact Live.run hr' ha (fun hclose => hout hclose r hr hnone) (hok.inv.load s.shared)
          hnone
          ⟨hlive.alive, hlive.drop, hlive.pty, hlive.output, hlive.sent, hlive.pump, hlive.watcher⟩
    · -- another one: what it knows of `alive` an older run cannot change
      have hok' := hs.ok j q hq
      refine ⟨hok'.inv, hok'.spent, hok'.older, fun hj => ?_⟩
      have hold := hs.run_old hr (by have := lt_length hq; omega) hr' ha
      change Newest r'.alive q
      rw [hold]
      exact hok'.newest hj
  · intro j k q t hjk hq ht hst
    rcases getElem?_set_cases ht with ⟨rfl, rfl⟩ | ⟨-, ht'⟩
    · rw [hrun.start] at hst
      rcases getElem?_set_cases hq with ⟨hjk', -⟩ | ⟨-, hq'⟩
      · omega
      · exact hs.settled j k q r hjk hq' hr hst
    · rcases getElem?_set_cases hq with ⟨rfl, rfl⟩ | ⟨-, hq'⟩
      · exact (step_calm hr' ha (hs.settled j k r t hjk hr ht' hst)).settled
      · exact hs.settled j k q t hjk hq' ht' hst

/-- A change of the handles that leaves each run what it is for the others. -/
theorem Runs.of_forall {alive : Bool} {runs runs' : List (Session.State τ)}
    (hs : Runs alive runs) (hlen : runs'.length = runs.length)
    (hrun : ∀ (j : Nat) (q : Session.State τ), runs'[j]? = some q → ∃ r, runs[j]? = some r ∧
      RunOk alive runs.length j q ∧ q.start = r.start ∧ (Settled r → Settled q)) :
    Runs alive runs' := by
  constructor
  · intro j q hq
    rcases hrun j q hq with ⟨r, -, hok, -⟩
    rwa [hlen]
  · intro j k q t hjk hq ht hst
    rcases hrun j q hq with ⟨r, hr, -, -, hsettled⟩
    rcases hrun k t ht with ⟨u, hu, -, hstart, -⟩
    rw [hstart] at hst
    exact hsettled (hs.settled j k r u hjk hr hu hst)

theorem Runs.map {alive : Bool} {runs : List (Session.State τ)} (hs : Runs alive runs)
    {f : Session.State τ → Session.State τ}
    (hf : ∀ (j : Nat) (r : Session.State τ), runs[j]? = some r → RunOk alive runs.length j (f r) ∧
      (f r).start = r.start ∧ (Settled r → Settled (f r))) : Runs alive (runs.map f) := by
  refine hs.of_forall (List.length_map f) fun j q hq => ?_
  rw [List.getElem?_map, Option.map_eq_some_iff] at hq
  rcases hq with ⟨r, hr, rfl⟩
  exact ⟨r, hr, hf j r hr⟩

theorem Runs.set {alive : Bool} {runs : List (Session.State τ)} (hs : Runs alive runs)
    {q : Session.State τ} (hr : runs[i]? = some r) (hok : RunOk alive runs.length i q)
    (hstart : q.start = r.start) (hsettled : Settled r → Settled q) :
    Runs alive (runs.set i q) := by
  refine hs.of_forall List.length_set fun j t ht => ?_
  rcases getElem?_set_cases ht with ⟨rfl, rfl⟩ | ⟨-, ht'⟩
  · exact ⟨r, hr, hok, hstart, hsettled⟩
  · exact ⟨t, ht', hs.ok j t ht', rfl, id⟩

theorem RunInv.same_handles (hr : RunInv r) {pty handles : Bool} {wchan : List (List UInt8)} :
    RunInv { r with pty := pty, handles := handles, wchan := wchan } where
  phases := ⟨fun _ => rfl, hr.phases.pump, hr.phases.watcher, hr.phases.drop, hr.phases.dropper,
    hr.phases.onPump, hr.phases.onWatcher⟩
  taken := ⟨hr.taken.sent, hr.taken.received, hr.taken.reader⟩
  reader := hr.reader

theorem Runs.dropHandles {alive : Bool} {runs : List (Session.State τ)} (hs : Runs alive runs) :
    Runs alive (runs.map dropHandles) := by
  refine hs.map fun j r hr => ⟨?_, rfl, id⟩
  have hok := hs.ok j r hr
  refine ⟨hok.inv.same_handles, hok.spent, hok.older, fun hj => ⟨(hok.newest hj).tokens, ?_⟩⟩
  intro hchild
  have hl := (hok.newest hj).live hchild
  exact ⟨hl.alive, hl.drop, hl.pty, hl.output, hl.sent, hl.pump, hl.watcher⟩

/-- The PTY of the newest run is not yet stored. -/
theorem Runs.dropPty {alive : Bool} {runs : List (Session.State τ)} (hs : Runs alive runs)
    (hr : runs[i]? = some r) (hi : i + 1 = runs.length) (hst : r.start = .storePty) :
    Runs alive (runs.map dropPty) := by
  refine hs.map fun j q hq => ⟨?_, rfl, id⟩
  have hok := hs.ok j q hq
  refine ⟨hok.inv.same_handles, hok.spent, hok.older, fun hj => ⟨(hok.newest hj).tokens, ?_⟩⟩
  intro hchild
  have hl := (hok.newest hj).live hchild
  have hji : j = i := by omega
  subst hji
  cases hr.symm.trans hq
  exact ⟨hl.alive, hl.drop, .inr (.inr (.inl hst)), hl.output, hl.sent, hl.pump, hl.watcher⟩

/-- An earlier run is released. -/
theorem Runs.release {alive : Bool} {runs : List (Session.State τ)} (hs : Runs alive runs)
    (hr : runs[i]? = some r) (hi : i + 1 < runs.length) :
    Runs alive (runs.set i (release r)) := by
  have hok := hs.ok i r hr
  refine hs.set hr ⟨⟨⟨fun _ => rfl, hok.inv.phases.pump, hok.inv.phases.watcher,
    fun _ => hok.older hi, ?_, ?_, ?_⟩, ?_, hok.inv.reader⟩, hok.spent, hok.older,
    fun hlast => by omega⟩ rfl id
  · simp [Starts.release]
  · simp [Starts.release]
  · simp [Starts.release]
  · exact ⟨hok.inv.taken.sent, hok.inv.taken.received, hok.inv.taken.reader⟩

theorem Runs.sendSentinel {alive : Bool} {runs : List (Session.State τ)} (hs : Runs alive runs)
    (hr : runs[i]? = some r) (hi : i + 1 < runs.length) :
    Runs alive (runs.set i (sendSentinel r)) := by
  have hok := hs.ok i r hr
  exact hs.set hr ⟨hok.inv.same_handles, hok.spent, hok.older, fun hlast => by omega⟩ rfl id

/-- A new run comes behind those that are there. -/
theorem Runs.append {alive : Bool} {runs : List (Session.State τ)} (hs : Runs alive runs)
    (halive : alive = false) (hreturned : ∀ r ∈ runs, r.start = .returned) (term : τ)
    (title : String) (cbs : Callbacks) (code : Int32) :
    Runs alive (runs ++ [Session.init term title cbs code]) := by
  subst halive
  constructor
  · intro j q hq
    rw [List.length_append, List.length_singleton]
    rcases Nat.lt_trichotomy j runs.length with hj | hj | hj
    · rw [List.getElem?_append_left hj] at hq
      have hok := hs.ok j q hq
      exact ⟨hok.inv, hok.spent, fun _ => hreturned q (List.mem_of_getElem? hq),
        fun hlast => by omega⟩
    · -- the new run, with the one token of its own `start`
      subst hj
      rw [List.getElem?_concat_length] at hq
      cases hq
      refine ⟨init_runInv term title cbs code, Nat.zero_le 1, fun hlt => by omega,
        fun _ => ⟨Nat.le_refl 1, ?_⟩⟩
      intro _
      exact ⟨fun hst => absurd rfl hst, rfl, .inl rfl, rfl, ⟨by simp [Session.init],
        by simp [Session.init]⟩, rfl, rfl⟩
    · rw [List.getElem?_eq_none (by simp; omega)] at hq
      cases hq
  · intro j k q t hjk hq ht hst
    have hk : k < runs.length := by
      -- the run behind the new one would be the new one itself, which has not started
      by_contra hk
      rcases List.getElem?_eq_some_iff.1 ht with ⟨hlt, ht'⟩
      have hkeq : k = runs.length := by
        simp at hlt
        omega
      subst hkeq
      rw [List.getElem?_concat_length] at ht
      cases ht
      exact hst rfl
    rw [List.getElem?_append_left hk] at ht
    rw [List.getElem?_append_left (by omega)] at hq
    exact hs.settled j k q t hjk hq ht hst

/-- A step of the tail of `start` keeps the runs; where it stores `alive`, those before it
are to be settled. -/
theorem Runs.tail (hs : Runs s.shared.alive s.runs)
    (h : s.stepRun i Session.startStep = some s') (hi : i + 1 = s.runs.length)
    (hnew : ∀ r, s.runs[i]? = some r → r.start = .storeAlive →
      ∀ (j : Nat) (q : Session.State τ), j < i → s.runs[j]? = some q → Settled q) :
    Runs s'.shared.alive s'.runs := by
  rcases stepRun_eq h with ⟨r, r', hr, hr', rfl⟩
  have hok := hs.ok i r hr
  -- the store of alive finds it down, as the runs before are settled
  have hdown : (s.shared.load r).start = .storeAlive → (s.shared.load r).alive = false :=
    fun hst => hs.alive_down hr hst
  have hinv := (hok.inv.load s.shared).start hr' hdown
  have htokens := Session.startStep_tokens hr' ((hok.inv.load s.shared).phases_of hdown)
  rw [tokens_load, tokens_eq] at htokens
  have hnewest := hok.newest hi
  have hle := hnewest.tokens
  rw [← htokens] at hle
  constructor
  · intro j q hq
    rw [List.length_set]
    rcases getElem?_set_cases hq with ⟨rfl, rfl⟩ | ⟨hne, hq'⟩
    · refine ⟨hinv, by omega, fun hj => by omega, fun _ => ⟨hle, fun hchild => ?_⟩⟩
      have hnone : r.child = none := by
        rcases Session.startStep_frame hr' with ⟨_, _, _, _, _, _, rfl⟩
        exact hchild
      have hl := hnewest.live hnone
      exact Live.start hr'
        ⟨hl.alive, hl.drop, hl.pty, hl.output, hl.sent, hl.pump, hl.watcher⟩
    · have hok' := hs.ok j q hq'
      have hj := lt_length hq'
      exact ⟨hok'.inv, hok'.spent, hok'.older, fun hlast => by omega⟩
  · intro j k q t hjk hq ht hst
    have hk : k < s.runs.length := by
      have hlt := (List.getElem?_eq_some_iff.1 ht).1
      rwa [List.length_set] at hlt
    rcases getElem?_set_cases hq with ⟨rfl, -⟩ | ⟨-, hq'⟩
    · omega
    · rcases getElem?_set_cases ht with ⟨rfl, -⟩ | ⟨-, ht'⟩
      · -- only its store of `alive` asks for settled runs
        by_cases hstart : r.start = .storeAlive
        · exact hnew r hr hstart j q hjk hq'
        · exact hs.settled j k q r hjk hq' hr hstart
      · exact hs.settled j k q t hjk hq' ht' hst

/-! ## Where `start` is -/

/-- The run `i` is the newest one, and its `start` is there. -/
def At (runs : List (Session.State τ)) (i : Nat) (st : Session.Start) : Prop :=
  i + 1 = runs.length ∧ ∃ r, runs[i]? = some r ∧ r.start = st

/-- A field has the handle of an earlier run, or none. -/
def Below (slot : Option Nat) (n : Nat) : Prop := ∀ j ∈ slot, j < n

/-- There is a writer in the field, which ends by itself. -/
def Ending (s : State κ τ) : Prop :=
  ∃ j r, s.writer = some j ∧ s.runs[j]? = some r ∧ (r.writer = .done ∨ [] ∈ r.wchan)

/-- All calls of `start` but the one that makes the newest run have returned. -/
def AllReturned (s : State κ τ) : Prop :=
  (∀ r ∈ s.runs, r.start = .returned) ∧ Below s.reader s.runs.length ∧
    Below s.writer s.runs.length

/-- What holds where a call of `start` is, when there is no other one past its guard. -/
def Stage (s : State κ τ) : Call → Prop
  | .idle | .loadAlive => AllReturned s
  | .lockOptions | .spawn => s.shared.alive = false ∧ AllReturned s
  | .storeAlive i => At s.runs i .storeAlive ∧ Below s.reader i ∧ Below s.writer i
  | .spawnPump i => At s.runs i .spawnPump ∧ Below s.reader i ∧ Below s.writer i
  | .storePty i => At s.runs i .storePty ∧ Below s.reader i ∧ Below s.writer i
  | .spawnWatcher i => At s.runs i .spawnWatcher ∧ Below s.reader i ∧ Below s.writer i
  | .storeReader i => At s.runs i .storeHandles ∧ Below s.reader i ∧ Below s.writer i
  | .dropWriter i =>
      At s.runs i .storeHandles ∧ Below s.reader s.runs.length ∧ Below s.writer i
  | .joinWriter i =>
      At s.runs i .storeHandles ∧ Below s.reader s.runs.length ∧ Below s.writer i ∧ Ending s
  | .storePump i =>
      At s.runs i .returned ∧ Below s.reader s.runs.length ∧ Below s.writer s.runs.length

theorem Below.mono {slot : Option Nat} {m n : Nat} (h : Below slot m) (hle : m ≤ n) :
    Below slot n := fun j hj => Nat.lt_of_lt_of_le (h j hj) hle

theorem Below.some {i n : Nat} (h : i < n) : Below (some i) n := by
  intro j hj
  cases hj
  exact h

/-- Nothing is known of no runs. -/
theorem created_runs (sh : Shared τ) (alive : Bool) :
    Runs alive (created sh : State κ τ).runs where
  ok i r h := by simp [created] at h
  settled i j r q _ h := by simp [created] at h

theorem created_allReturned (sh : Shared τ) : AllReturned (created sh : State κ τ) := by
  simp [AllReturned, Below, created]

/-- The next point of the tail of `start`. -/
def nextStart : Session.Start → Session.Start
  | .storeAlive => .spawnPump
  | .spawnPump => .storePty
  | .storePty => .spawnWatcher
  | .spawnWatcher => .storeHandles
  | .storeHandles | .returned => .returned

theorem startStep_next {r r' : Session.State τ} (h : Session.startStep r = some r') :
    r'.start = nextStart r.start := by
  cases Session.startStep_move h with
  | storeAlive hst | spawnPump hst | storePty hst | spawnWatcher hst | storeHandles hst =>
      rw [hst]
      rfl

theorem At.set {runs : List (Session.State τ)} {j : Nat} {st st' : Session.Start}
    (h : At runs i st) {r q : Session.State τ} (hr : runs[j]? = some r)
    (hq : j = i → q.start = st') (hst : j ≠ i → st' = st) : At (runs.set j q) i st' := by
  rcases h with ⟨hi, r₀, hr₀, hst₀⟩
  refine ⟨by rw [List.length_set, hi], ?_⟩
  by_cases hji : j = i
  · subst hji
    have hlt := (List.getElem?_eq_some_iff.1 hr).1
    exact ⟨q, by rw [List.getElem?_set_self hlt], hq rfl⟩
  · exact ⟨r₀, by rw [List.getElem?_set_ne hji, hr₀], by rw [hst hji, hst₀]⟩

theorem At.map {runs : List (Session.State τ)} {st : Session.Start} (h : At runs i st)
    {f : Session.State τ → Session.State τ} (hf : ∀ r, (f r).start = r.start) :
    At (runs.map f) i st := by
  rcases h with ⟨hi, r, hr, hst⟩
  exact ⟨by rw [List.length_map, hi], f r, by rw [List.getElem?_map, hr]; rfl, by rw [hf, hst]⟩

theorem At.tail {st : Session.Start} (hat : At s.runs i st)
    (h : s.stepRun i Session.startStep = some s') :
    At s'.runs i (nextStart st) ∧ s'.runs.length = s.runs.length ∧ s'.reader = s.reader ∧
      s'.writer = s.writer := by
  rcases stepRun_eq h with ⟨r, r', hr, hr', rfl⟩
  refine ⟨hat.set hr (fun _ => ?_) fun hne => absurd rfl hne, List.length_set, rfl, rfl⟩
  rcases hat with ⟨-, q, hq, hst⟩
  cases hr.symm.trans hq
  rw [startStep_next hr', ← hst]
  rfl

/-- A step of a run moves no call of `start`. -/
theorem Stage.run {c : Call} (hs : Stage s c) (h : s.stepRun i (Session.step advance a) = some s')
    (ha : inRun a = true) : Stage s' c := by
  rcases stepRun_eq h with ⟨r, r', hr, hr', rfl⟩
  have hrun := step_run hr' ha
  have hat : ∀ {k st}, At s.runs k st → At (s.runs.set i r') k st := by
    intro k st hk
    refine hk.set hr (fun hik => ?_) fun _ => rfl
    rcases hk with ⟨-, q, hq, hst⟩
    subst hik
    cases hr.symm.trans hq
    exact hrun.start.trans hst
  -- a step of a run may take alive down, and never up
  have hdown : s.shared.alive = false → r'.alive = false := fun halive =>
    hrun.alive.elim (fun hsame => hsame.trans halive) id
  have hall : AllReturned s → AllReturned
      { s with shared := .ofRun r', runs := s.runs.set i r' } := by
    rintro ⟨hreturned, hreader, hwriter⟩
    refine ⟨fun q hq => ?_, by rwa [List.length_set], by rwa [List.length_set]⟩
    rcases List.mem_or_eq_of_mem_set hq with hq | rfl
    · exact hreturned q hq
    · exact hrun.start.trans (hreturned r (List.mem_of_getElem? hr))
  cases c with
  | idle | loadAlive => exact hall hs
  | lockOptions | spawn => exact ⟨hdown hs.1, hall hs.2⟩
  | storeAlive | spawnPump | storePty | spawnWatcher | storeReader => exact ⟨hat hs.1, hs.2⟩
  | dropWriter | storePump =>
      simp only [Stage, List.length_set]
      exact ⟨hat hs.1, hs.2⟩
  | joinWriter =>
      rcases hs with ⟨hst, hreader, hwriter, hending⟩
      simp only [Stage, List.length_set]
      refine ⟨hat hst, hreader, hwriter, ?_⟩
      rcases hending with ⟨j, q, hj, hq, hends⟩
      by_cases hji : i = j
      · subst hji
        cases hr.symm.trans hq
        exact ⟨i, r', hj, List.getElem?_set_self (lt_length hr), hrun.ending hends⟩
      · exact ⟨j, q, hj, by rw [List.getElem?_set_ne hji, hq], hends⟩

theorem At.allReturned (h : At s.runs i .returned) (hs : Runs s.shared.alive s.runs) :
    ∀ r ∈ s.runs, r.start = .returned := by
  intro r hr
  rcases h with ⟨hi, q, hq, hst⟩
  rcases List.getElem?_of_mem hr with ⟨j, hj⟩
  have hlt := lt_length hj
  by_cases hji : j = i
  · subst hji
    cases hq.symm.trans hj
    exact hst
  · exact (hs.ok j r hj).older (by omega)

variable [DecidableEq κ] {k : κ}

@[simp] theorem goto_calls (c : Call) : (s.goto k c).calls k = c := by simp [State.goto]

@[simp] theorem reply_calls (res : Except StartFailure.RataError Unit) :
    (s.reply k res).calls k = .idle := by
  simp [State.reply]

/-- The newest run goes on in the tail of `start`. -/
theorem tail_next {c : Call} {st : Session.Start} (h : s.tail k i c = some s')
    (hs : Runs s.shared.alive s.runs) (hat : At s.runs i st)
    (hnew : st = .storeAlive →
      ∀ (j : Nat) (q : Session.State τ), j < i → s.runs[j]? = some q → Settled q) :
    Runs s'.shared.alive s'.runs ∧ At s'.runs i (nextStart st) ∧
      s'.runs.length = s.runs.length ∧ s'.reader = s.reader ∧ s'.writer = s.writer ∧
      s'.calls k = c := by
  unfold State.tail at h
  rcases Option.map_eq_some_iff.1 h with ⟨t, ht, rfl⟩
  rcases hat.tail ht with ⟨hnext, hlength, hr, hw⟩
  have hruns : Runs t.shared.alive t.runs := hs.tail ht hat.1 fun r hr hst => hnew ?_
  · exact ⟨hruns, hnext, hlength, hr, hw, goto_calls c⟩
  rcases hat.2 with ⟨q, hq, hqst⟩
  cases hq.symm.trans hr
  rw [← hqst, hst]

/-- The newest run stores its writer. -/
theorem storeWriter_stage (h : storeWriter k i s = some s') (hs : Runs s.shared.alive s.runs)
    (hat : At s.runs i .storeHandles) (hreader : Below s.reader s.runs.length) :
    Runs s'.shared.alive s'.runs ∧ Stage s' (s'.calls k) := by
  have hat' : At (s.runs.map dropHandles) i .storeHandles := hat.map fun _ => rfl
  rcases tail_next h hs.dropHandles hat' (fun hst => by cases hst) with
    ⟨hruns, hnext, hlength, hr, hw, hcall⟩
  have hlength' : s'.runs.length = s.runs.length := by simpa using hlength
  have hi := hat.1
  rw [hcall]
  refine ⟨hruns, hnext, ?_, ?_⟩
  · rwa [hr, hlength']
  · rw [hw, hlength']
    exact Below.some (by omega)

/-- A step of a call of `start`, when there is no other one past its guard; where it
stores `alive`, the runs before its own are to be settled. -/
theorem startStep_stage (h : startStep k s = some s') (hs : Runs s.shared.alive s.runs)
    (hst : Stage s (s.calls k)) (hnew : ∀ i, s.calls k = .storeAlive i →
      ∀ (j : Nat) (q : Session.State τ), j < i → s.runs[j]? = some q → Settled q) :
    Runs s'.shared.alive s'.runs ∧ Stage s' (s'.calls k) := by
  cases startStep_move h with
  | refused hcall =>
      rw [hcall] at hst
      rw [reply_calls]
      exact ⟨hs, hst⟩
  | passes hcall halive =>
      rw [hcall] at hst
      rw [goto_calls]
      exact ⟨hs, halive, hst⟩
  | locks hcall =>
      rw [hcall] at hst
      rw [goto_calls]
      exact ⟨hs, hst⟩
  | spawns hcall =>
      rw [hcall] at hst
      rcases hst with ⟨halive, hreturned, hreader, hwriter⟩
      rw [goto_calls]
      refine ⟨hs.append halive hreturned _ _ _ _, ⟨?_, _, List.getElem?_concat_length, rfl⟩,
        hreader, hwriter⟩
      simp [State.goto]
  | storeAlive hcall h =>
      rw [hcall] at hst
      rcases hst with ⟨hat, hreader, hwriter⟩
      rcases tail_next h hs hat (fun _ => hnew _ hcall) with ⟨hruns, hnext, -, hr, hw, hgoto⟩
      rw [hgoto]
      exact ⟨hruns, hnext, hr ▸ hreader, hw ▸ hwriter⟩
  | spawnPump hcall h | spawnWatcher hcall h =>
      rw [hcall] at hst
      rcases hst with ⟨hat, hreader, hwriter⟩
      rcases tail_next h hs hat (fun hst => by cases hst) with ⟨hruns, hnext, -, hr, hw, hgoto⟩
      rw [hgoto]
      exact ⟨hruns, hnext, hr ▸ hreader, hw ▸ hwriter⟩
  | storePty hcall h =>
      rw [hcall] at hst
      rcases hst with ⟨hat, hreader, hwriter⟩
      -- the handle of the session before goes where the new one is stored
      have hdrop : Runs s.shared.alive (s.runs.map dropPty) := by
        rcases hat with ⟨hi, r, hr, hst⟩
        exact hs.dropPty hr hi hst
      rcases tail_next h hdrop (hat.map fun _ => rfl) (fun hst => by cases hst) with
        ⟨hruns, hnext, -, hr, hw, hgoto⟩
      rw [hgoto]
      exact ⟨hruns, hnext, hr ▸ hreader, hw ▸ hwriter⟩
  | @storeReader i hcall =>
      rw [hcall] at hst
      rcases hst with ⟨hat, -, hwriter⟩
      have hi := hat.1
      have hlt : i < s.runs.length := by omega
      rw [goto_calls]
      exact ⟨hs, hat, Below.some hlt, hwriter⟩
  | @joinReader i j r hcall hj hr =>
      rw [hcall] at hst
      rcases hst with ⟨hat, hreader, hwriter⟩
      have hi := hat.1
      -- the reader that is joined is one of an older run
      have hlt := hreader j hj
      rw [goto_calls]
      refine ⟨hs.release hr (by omega), hat.set hr (fun hji => by omega) fun _ => rfl, ?_, hwriter⟩
      exact Below.some (by simp [State.goto]; omega)
  | @dropWriter i j r hcall hj hr =>
      rw [hcall] at hst
      rcases hst with ⟨hat, hreader, hwriter⟩
      have hi := hat.1
      have hlt := hwriter j hj
      rw [goto_calls]
      refine ⟨hs.sendSentinel hr (by omega), hat.set hr (fun hji => by omega) fun _ => rfl, ?_,
        hwriter, j, sendSentinel r, hj, List.getElem?_set_self (lt_length hr), ?_⟩
      · simpa [State.goto] using hreader
      · by_cases hdone : r.writer = .done
        · exact .inl hdone
        · -- the sentinel is the last buffer of its channel
          refine .inr ?_
          simp [sendSentinel, Session.State.sendWriter, hdone]
  | storeWriter hcall h =>
      rcases hcall with hcall | hcall
      · rw [hcall] at hst
        exact storeWriter_stage h hs hst.1 hst.2.1
      · rw [hcall] at hst
        exact storeWriter_stage h hs hst.1 hst.2.1
  | returns hcall =>
      rw [hcall] at hst
      rcases hst with ⟨hat, hreader, hwriter⟩
      rw [reply_calls]
      exact ⟨hs, hat.allReturned hs, hreader, hwriter⟩

/-! ## What a step of `start` leaves -/

/-- How far a call of `start` is from its return. -/
def Call.rank : Call → Nat
  | .idle => 0
  | .loadAlive => 12
  | .lockOptions => 11
  | .spawn => 10
  | .storeAlive _ => 9
  | .spawnPump _ => 8
  | .storePty _ => 7
  | .spawnWatcher _ => 6
  | .storeReader _ => 5
  | .dropWriter _ => 4
  | .joinWriter _ => 3
  | .storePump _ => 2

/-- The call has not yet stored `alive`. -/
def Call.entering : Call → Bool
  | .lockOptions | .spawn | .storeAlive _ => true
  | _ => false

/-- The children of the runs, the first one first. -/
def State.children (s : State κ τ) : List (Option UInt32) := s.runs.map (·.child)

/-- The call `k` of `start` goes on; other calls, the children that are there and, before
its last steps, the writer stay. -/
structure StartFrame (k : κ) (s s' : State κ τ) : Prop where
  calls : ∀ k', k' ≠ k → s'.calls k' = s.calls k'
  rank : (s'.calls k).rank < (s.calls k).rank
  entered : (s.calls k).entering = false → s.calls k ≠ .loadAlive →
    (s'.calls k).entering = false ∧ s'.calls k ≠ .loadAlive
  children : s'.children = s.children ∨ s.calls k = .spawn ∧ s'.children = s.children ++ [none]
  results : s'.calls k ≠ .idle ∧ s'.results = s.results ∨ s'.calls k = .idle ∧
    ((s.calls k = .loadAlive ∧
      s'.results = s.results ++ [(k, .error (.state "already running"))]) ∨
    ∃ i, s.calls k = .storePump i ∧ s'.results = s.results ++ [(k, .ok ())])
  writer : 2 < (s'.calls k).rank → s'.writer = s.writer
  locked : s'.optionsLocked = true → s'.calls k = .spawn ∨
    s.optionsLocked = true ∧ s.calls k ≠ .spawn

/-- Setting an element to one that `f` does not tell from it. -/
theorem map_set_same {α β : Type} {l : List α} {j : Nat} {x y : α} {f : α → β}
    (hx : l[j]? = some x) (hf : f y = f x) : (l.set j y).map f = l.map f := by
  rcases List.getElem?_eq_some_iff.1 hx with ⟨hlt, rfl⟩
  rw [List.map_set, hf, ← List.getElem_map f (h := by simpa using hlt), List.set_getElem_self]

theorem goto_frame {c : Call} (hidle : c ≠ .idle) (hrank : c.rank < (s.calls k).rank)
    (hentered : (s.calls k).entering = false → s.calls k ≠ .loadAlive →
      c.entering = false ∧ c ≠ .loadAlive)
    (hchildren : s'.children = s.children ∨ s.calls k = .spawn ∧ s'.children = s.children ++ [none])
    (hcalls : s'.calls = s.calls) (hresults : s'.results = s.results)
    (hwriter : 2 < c.rank → s'.writer = s.writer)
    (hlocked : s'.optionsLocked = true → c = .spawn ∨
      s.optionsLocked = true ∧ s.calls k ≠ .spawn) : StartFrame k s (s'.goto k c) where
  calls k' hne := by simp [State.goto, hne, hcalls]
  rank := by simpa using hrank
  entered := by simpa using hentered
  children := hchildren
  results := .inl ⟨by simpa using hidle, hresults⟩
  writer hlt := hwriter (by simpa using hlt)
  locked hlock := by simpa using hlocked hlock

/-- A step of the tail of `start`, where the runs before it have other handles. -/
theorem tail_frame {c : Call} {st : State κ τ} (h : st.tail k i c = some s')
    (hrank : c.rank < (s.calls k).rank) (hspawn : s.calls k ≠ .spawn)
    (hidle : c ≠ .idle) (hentered : c.entering = false ∧ c ≠ .loadAlive)
    (hchildren : st.children = s.children) (hcalls : st.calls = s.calls)
    (hresults : st.results = s.results) (hlocked : st.optionsLocked = s.optionsLocked)
    (hwriter : 2 < c.rank → st.writer = s.writer) : StartFrame k s s' := by
  unfold State.tail at h
  rcases Option.map_eq_some_iff.1 h with ⟨t, ht, rfl⟩
  rcases stepRun_eq ht with ⟨r, r', hr, hr', rfl⟩
  have hchild : r'.child = r.child := by
    rcases Session.startStep_frame hr' with ⟨_, _, _, _, _, _, rfl⟩
    rfl
  refine goto_frame hidle hrank (fun _ _ => hentered) (.inl ?_) hcalls hresults hwriter
    fun hlock => .inr ⟨hlocked ▸ hlock, hspawn⟩
  rw [← hchildren]
  exact map_set_same hr hchild

theorem storeWriter_frame (h : storeWriter k i s = some s') (hrank : 2 < (s.calls k).rank)
    (hspawn : s.calls k ≠ .spawn) : StartFrame k s s' := by
  refine tail_frame h hrank hspawn (by simp) ⟨rfl, by simp⟩ ?_ rfl rfl rfl
    fun hlt => absurd hlt (by simp [Call.rank])
  simp only [State.children, List.map_map]
  rfl

theorem startStep_startFrame (h : startStep k s = some s') : StartFrame k s s' := by
  cases startStep_move h with
  | refused hcall =>
      exact ⟨fun k' hne => by simp [State.reply, hne], by simp [hcall, Call.rank],
        fun _ hne => absurd hcall hne, .inl rfl, .inr ⟨by simp, .inl ⟨hcall, rfl⟩⟩,
        fun _ => rfl, fun hlock => .inr ⟨hlock, by simp [hcall]⟩⟩
  | passes hcall =>
      exact goto_frame (by simp) (by simp [hcall, Call.rank]) (fun _ hne => absurd hcall hne)
        (.inl rfl) rfl rfl (fun _ => rfl) fun hlock => .inr ⟨hlock, by simp [hcall]⟩
  | locks hcall =>
      exact goto_frame (by simp) (by simp [hcall, Call.rank]) (by simp [hcall, Call.entering])
        (.inl rfl) rfl rfl (fun _ => rfl) fun _ => .inl rfl
  | spawns hcall =>
      refine goto_frame (by simp) (by simp [hcall, Call.rank]) (by simp [hcall, Call.entering])
        (.inr ⟨hcall, ?_⟩) rfl rfl (fun _ => rfl) fun hlock => by cases hlock
      simp [State.children, Session.init]
  | storeAlive hcall h | spawnPump hcall h | spawnWatcher hcall h =>
      exact tail_frame h (by simp [hcall, Call.rank]) (by simp [hcall]) (by simp) ⟨rfl, by simp⟩
        rfl rfl rfl rfl fun _ => rfl
  | storePty hcall h =>
      refine tail_frame h (by simp [hcall, Call.rank]) (by simp [hcall]) (by simp) ⟨rfl, by simp⟩
        ?_ rfl rfl rfl fun _ => rfl
      simp only [State.children, List.map_map]
      rfl
  | storeReader hcall =>
      exact goto_frame (by simp) (by simp [hcall, Call.rank]) (fun _ _ => ⟨rfl, by simp⟩)
        (.inl rfl) rfl rfl (fun _ => rfl) fun hlock => .inr ⟨hlock, by simp [hcall]⟩
  | joinReader hcall _ hr | dropWriter hcall _ hr =>
      exact goto_frame (by simp) (by simp [hcall, Call.rank]) (fun _ _ => ⟨rfl, by simp⟩)
        (.inl (map_set_same hr rfl)) rfl rfl (fun _ => rfl)
        fun hlock => .inr ⟨hlock, by simp [hcall]⟩
  | storeWriter hcall h =>
      rcases hcall with hcall | hcall <;>
        exact storeWriter_frame h (by simp [hcall, Call.rank]) (by simp [hcall])
  | returns hcall =>
      exact ⟨fun k' hne => by simp [State.reply, hne], by simp [hcall, Call.rank],
        fun _ _ => by simp [Call.entering], .inl rfl, .inr ⟨by simp, .inr ⟨_, hcall, rfl⟩⟩,
        fun _ => rfl, fun hlock => .inr ⟨hlock, by simp [hcall]⟩⟩

end Runs

end RataShell.Starts
