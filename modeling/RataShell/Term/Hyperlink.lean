import RataShell.Lib.Intern
import RataShell.Lib.Machine
import RataShell.Term.Plain

/-!
# Hyperlinks

A terminal host under output and the calls of the host, with the cells of the
snapshots taken. A snapshot registers the URI of each linked cell under its hash,
where no other stands yet, and gives the host the hash.

* `hyperlinks_eq`: the registered URIs are the first of each hash.
* `resolves_iff`: every id leads to the URI of its cell exactly when no two URIs
  seen have one hash.
* `hyperlinks_collide`: two addresses that have.
-/

namespace RataShell.Term

variable {T R : Type}

/-! ## Runs -/

/-- A host and the grid cells of its snapshots so far. -/
structure Linked (T : Type) where
  host : TermHost T
  seen : List Cell

/-- Output of the shell, an operation or a snapshot. -/
inductive LinkLabel where
  | output (bytes : List UInt8)
  | call (op : Op)
  | snapshot
deriving DecidableEq, Repr

namespace Linked

variable (A : Alacritty T R)

def step (a : LinkLabel) (s : Linked T) : Linked T :=
  match a with
  | .output bytes => { s with host := s.host.advance A bytes }
  | .call op => { s with host := op.host A s.host }
  | .snapshot => { host := s.host.snapshot A, seen := s.seen ++ s.host.viewCells A }

def machine : Lts.Machine (Linked T) LinkLabel where
  Init s := ∃ cols rows scrollback, s = ⟨TermHost.new A cols rows scrollback, []⟩
  step a s := some (s.step A a)

/-! ## What the host is given -/

/-- The URIs of the cells seen. -/
def uris (s : Linked T) : List String := s.seen.filterMap Cell.hyperlink

/-- The id that the host got with a cell leads to the URI of the cell, and is 0 if
there is none. -/
def CellResolves (s : Linked T) (c : Cell) : Prop :=
  match c.hyperlink with
  | none => (TermHost.hostCell c).hyperlinkId = 0
  | some uri => (TermHost.hostCell c).hyperlinkId ≠ 0 ∧
      s.host.hyperlinkUri (TermHost.hostCell c).hyperlinkId = uri

/-- Every cell of every snapshot so far has an id that leads to its URI. -/
def Resolves (s : Linked T) : Prop := ∀ c ∈ s.seen, s.CellResolves c

/-- No two URIs seen have one hash. -/
def Apart (s : Linked T) : Prop :=
  ∀ u ∈ s.uris, ∀ v ∈ s.uris, hashUri u = hashUri v → u = v

instance (s : Linked T) (c : Cell) : Decidable (s.CellResolves c) :=
  match h : c.hyperlink with
  | none => decidable_of_iff ((TermHost.hostCell c).hyperlinkId = 0) (by simp [CellResolves, h])
  | some uri => decidable_of_iff ((TermHost.hostCell c).hyperlinkId ≠ 0 ∧
      s.host.hyperlinkUri (TermHost.hostCell c).hyperlinkId = uri) (by simp [CellResolves, h])

instance (s : Linked T) : Decidable s.Resolves :=
  inferInstanceAs (Decidable (∀ c ∈ s.seen, s.CellResolves c))

instance (s : Linked T) : Decidable s.Apart :=
  inferInstanceAs (Decidable (∀ u ∈ s.uris, ∀ v ∈ s.uris, hashUri u = hashUri v → u = v))

/-! ## The registered URIs -/

variable {A}

/-- No call of the host registers a URI. -/
theorem hyperlinks_call (op : Op) (t : TermHost T) : (op.host A t).hyperlinks = t.hyperlinks := by
  have hpattern : ∀ pattern, (t.setPattern pattern).hyperlinks = t.hyperlinks := by
    intro pattern
    unfold TermHost.setPattern
    split <;> rfl
  cases op with
  | viMotion kind =>
      show (t.viMotion A kind).hyperlinks = _
      unfold TermHost.viMotion
      split <;> rfl
  | searchNext pattern forward =>
      show (t.searchNext A pattern forward).1.hyperlinks = _
      unfold TermHost.searchNext
      split
      · rfl
      · split
        · rfl
        · split
          · exact hpattern pattern
          · simp only [TermHost.showLine]
            split
            · exact hpattern pattern
            · split <;> exact hpattern pattern
  | _ => rfl

/-- A cell enters its URI, if it has one. -/
theorem register_eq (links : UInt32 → Option String) (c : Cell) :
    TermHost.register links c =
      (match c.hyperlink with
        | none => links
        | some uri => Intern.enter hashUri links uri) := by
  cases hlink : c.hyperlink with
  | none => simp only [TermHost.register, hlink]
  | some uri =>
      simp only [TermHost.register, Intern.enter, hlink]
      split <;> simp_all

theorem foldl_register (links : UInt32 → Option String) (cells : List Cell) :
    cells.foldl TermHost.register links =
      (cells.filterMap Cell.hyperlink).foldl (Intern.enter hashUri) links := by
  induction cells generalizing links with
  | nil => rfl
  | cons c cells ih =>
      rw [List.foldl_cons, ih, register_eq, List.filterMap_cons]
      cases c.hyperlink <;> rfl

/-- The registered URIs are the first of each hash, of all that were seen. -/
theorem hyperlinks_eq {C : Lts.StepCond (Linked T) LinkLabel} {s : Linked T}
    (hs : (machine A).Reachable C s) : s.host.hyperlinks = Intern.table hashUri s.uris := by
  refine Lts.Machine.init_invariant (fun s : Linked T =>
    s.host.hyperlinks = Intern.table hashUri s.uris) ?_ ?_ hs
  · rintro s ⟨cols, rows, scrollback, rfl⟩
    rfl
  · intro a s s' _ hstep hlinks
    cases hstep
    cases a with
    | output bytes => exact hlinks
    | call op => exact (hyperlinks_call op s.host).trans hlinks
    | snapshot =>
        show (s.host.viewCells A).foldl TermHost.register s.host.hyperlinks =
          Intern.table hashUri ((s.seen ++ s.host.viewCells A).filterMap Cell.hyperlink)
        rw [foldl_register, hlinks, List.filterMap_append, Intern.table_append]
        rfl

/-! ## Where the ids lead -/

theorem resolves_iff_finds {s : Linked T}
    (hlinks : s.host.hyperlinks = Intern.table hashUri s.uris) :
    s.Resolves ↔ ∀ u ∈ s.uris, Intern.table hashUri s.uris (hashUri u) = some u := by
  have hcell : ∀ c, s.CellResolves c ↔
      ∀ u, c.hyperlink = some u → (s.host.hyperlinks (hashUri u)).getD "" = u := by
    intro c
    cases hlink : c.hyperlink with
    | none => simp [CellResolves, TermHost.hostCell, hlink, convertCell]
    | some u =>
        simp [CellResolves, TermHost.hostCell, TermHost.hyperlinkUri, hlink, hashUri_ne_zero]
  constructor
  · intro hresolves u hu
    rcases List.mem_filterMap.1 hu with ⟨c, hc, hlink⟩
    have hget := (hcell c).1 (hresolves c hc) u hlink
    rw [hlinks] at hget
    -- the hash of a URI seen is taken, by this URI or another
    cases htable : Intern.table hashUri s.uris (hashUri u) with
    | none =>
        rw [Intern.table_eq_find, List.find?_eq_none] at htable
        simpa using htable u hu
    | some v =>
        rw [htable] at hget
        exact congrArg some hget
  · intro hfinds c hc
    rw [hcell]
    intro u hlink
    rw [hlinks, hfinds u (List.mem_filterMap.2 ⟨c, hc, hlink⟩)]
    rfl

/-- In every state of every run, each id leads to the URI of its cell exactly when
no two URIs seen have one hash. -/
theorem resolves_iff {s : Linked T} (hs : (machine A).Reachable (fun _ _ => True) s) :
    s.Resolves ↔ s.Apart :=
  (resolves_iff_finds (hyperlinks_eq hs)).trans Intern.finds_iff

/-- A character under the hyperlink of OSC 8. -/
def linkBytes (uri : String) (c : UInt8) : List UInt8 :=
  [0x1b, 0x5d, 0x38, 0x3b, 0x3b] ++ uri.toUTF8.toList ++ [0x07, c]

/-- Two links, one after the other, with a snapshot of each. -/
def twoLinks (u v : String) : List LinkLabel :=
  [.output (linkBytes u 0x61), .snapshot, .output (linkBytes v 0x62), .snapshot]

/-- An empty host of four columns. -/
def blank : Linked Plain := ⟨TermHost.new plain 4 1 0, []⟩

theorem blank_init : (machine plain).Init blank := ⟨4, 1, 0, rfl⟩

/-- Two addresses of one hash: the id of the second leads to the first. -/
theorem hyperlinks_collide :
    ∃ s, (machine plain).Reachable (fun _ _ => True) s ∧ ¬ s.Resolves := by
  have hmeets : (machine plain).Meets (fun _ _ => True) blank
      (twoLinks "http://l3vu/" "http://2tea/") := by
    decide +kernel
  have htest : ((machine plain).run blank (twoLinks "http://l3vu/" "http://2tea/")).any
      (fun s => decide (¬ s.Resolves)) = true := by
    decide +kernel
  rcases Lts.Machine.exists_reachable _ _ blank_init hmeets htest with ⟨s, -, hs, hnot⟩
  exact ⟨s, hs, of_decide_eq_true hnot⟩

/-- Two addresses of two hashes. -/
theorem hyperlinks_resolve :
    ∃ s, (machine plain).Reachable (fun _ _ => True) s ∧
      "http://l3vu/" ∈ s.uris ∧ "http://l3vv/" ∈ s.uris ∧ s.Resolves := by
  have hmeets : (machine plain).Meets (fun _ _ => True) blank
      (twoLinks "http://l3vu/" "http://l3vv/") := by
    decide +kernel
  have htest : ((machine plain).run blank (twoLinks "http://l3vu/" "http://l3vv/")).any
      (fun s => decide ("http://l3vu/" ∈ s.uris ∧ "http://l3vv/" ∈ s.uris ∧ s.Apart)) = true := by
    decide +kernel
  rcases Lts.Machine.exists_reachable _ _ blank_init hmeets htest with ⟨s, -, hs, htest⟩
  rcases of_decide_eq_true htest with ⟨hu, hv, hapart⟩
  exact ⟨s, hs, hu, hv, (resolves_iff hs).2 hapart⟩

end Linked

end RataShell.Term
