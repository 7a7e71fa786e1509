import Mathlib.Tactic.NormNum
import RataShell.Lib.Machine

/-!
# The size of a session

The size of a session is kept in its spawn options, in the terminal grid and in
the pseudo console of the running child. `rata_session_create` sets the first
two, `Session::resize` the last two, and `Session::start` spawns with the
options.

* `sizes_agree_iff`: a run keeps the console at the size of the grid exactly
  when the grid has the size of creation at every `start`.
* `resized_before_start`: a resize before `start` breaks it.
-/

namespace RataShell.Sizes

/-! ## Sizes -/

/-- `term.rs`, `Size`. -/
structure Size where
  cols : Nat
  lines : Nat
deriving DecidableEq, Repr

/-- `Size::new`. -/
def Size.new (cols lines : Nat) : Size := ⟨max cols 2, max lines 1⟩

/-- The Win32 `COORD`. -/
structure Coord where
  X : Int16
  Y : Int16
deriving DecidableEq, Repr

/-- The size that `PtyHost::spawn` and `PtyHost::resize` pass on. -/
def coord (cols rows : UInt16) : Coord := ⟨(max cols 1).toInt16, (max rows 1).toInt16⟩

/-- A size that every clamp leaves unchanged. -/
structure Dims where
  cols : UInt16
  rows : UInt16
  cols_ge : 2 ≤ cols.toNat
  cols_le : cols.toNat ≤ 32767
  rows_ge : 1 ≤ rows.toNat
  rows_le : rows.toNat ≤ 32767

/-- The console has the size of the grid. -/
def Coord.Agrees (c : Coord) (g : Size) : Prop := c.X.toInt = g.cols ∧ c.Y.toInt = g.lines

instance (c : Coord) (g : Size) : Decidable (c.Agrees g) :=
  inferInstanceAs (Decidable (c.X.toInt = g.cols ∧ c.Y.toInt = g.lines))

theorem max_one {n : UInt16} (h : 1 ≤ n.toNat) : max n 1 = n := by
  show (if n ≤ 1 then 1 else n) = n
  split
  · rename_i hle
    have hle' : n.toNat ≤ 1 := hle
    exact UInt16.toNat_inj.1 (show (1 : Nat) = n.toNat by omega)
  · rfl

/-- Between 1 and 32767 neither the clamp nor the cast changes a length. -/
theorem clamp_toInt {n : UInt16} (h : 1 ≤ n.toNat) (h' : n.toNat ≤ 32767) :
    (max n 1).toInt16.toInt = n.toNat := by
  have hlt : 2 * n.toBitVec.toNat < 2 ^ 16 := by
    have hnat : n.toBitVec.toNat = n.toNat := rfl
    omega
  rw [max_one h]
  exact BitVec.toInt_eq_toNat_of_lt hlt

/-- What a size between the bounds gives the console is what it gives the grid. -/
theorem Dims.agrees_iff (d : Dims) (g : Size) :
    (coord d.cols d.rows).Agrees g ↔ g = Size.new d.cols.toNat d.rows.toNat := by
  have hcols := d.cols_ge
  have hrows := d.rows_ge
  unfold Coord.Agrees coord
  rw [clamp_toInt (by omega) d.cols_le, clamp_toInt hrows d.rows_le, Size.new,
    max_eq_left hcols, max_eq_left hrows]
  constructor
  · rintro ⟨hX, hY⟩
    cases g
    simp only [Size.mk.injEq]
    simp only [Nat.cast_inj] at hX hY
    exact ⟨hX.symm, hY.symm⟩
  · rintro rfl
    exact ⟨rfl, rfl⟩

/-! ## The session -/

/-- The sizes of a session: `options`, `TermHost.size`, that of the last
`PtyHost`, and whether its child runs. -/
structure State where
  cols : UInt16
  rows : UInt16
  grid : Size
  pty : Option Coord
  alive : Bool
deriving DecidableEq, Repr

/-- Host calls that succeed, and the end of the child. -/
inductive Label where
  | resize (d : Dims)
  | start
  | childExit

/-- `rata_session_create`, with `Session::new`. -/
def create (cols rows : UInt16) : State where
  cols := max cols 1
  rows := max rows 1
  grid := Size.new (max cols 1).toNat (max rows 1).toNat
  pty := none
  alive := false

/-- `Session::resize`. -/
def resize (cols rows : UInt16) (s : State) : State :=
  { s with
    grid := Size.new cols.toNat rows.toNat
    pty := s.pty.map fun _ => coord cols rows }

/-- `Session::start`; an error while a child runs. -/
def start (s : State) : Option State :=
  if s.alive then none else some { s with pty := some (coord s.cols s.rows), alive := true }

/-- One step of the session. -/
def step (a : Label) (s : State) : Option State :=
  match a with
  | .resize d => some (resize d.cols d.rows s)
  | .start => start s
  | .childExit => some { s with alive := false }

/-- The runs of a session from its creation. -/
def machine : Lts.Machine State Label where
  Init s := ∃ d : Dims, s = create d.cols d.rows
  step := step

/-- While a child runs its console has the size of the grid. -/
def SizesAgree (s : State) : Prop :=
  s.alive = true → ∃ c, s.pty = some c ∧ c.Agrees s.grid

/-- `start` is called while the grid has the size of creation. -/
def StartsAtCreation : Lts.StepCond State Label := fun a s =>
  match a with
  | .start => s.grid = Size.new s.cols.toNat s.rows.toNat
  | _ => True

/-- The options keep the size of creation. -/
def Created (s : State) : Prop := ∃ d : Dims, s.cols = d.cols ∧ s.rows = d.rows

theorem create_created (d : Dims) : Created (create d.cols d.rows) := by
  have hcols : 1 ≤ d.cols.toNat := by
    have hge := d.cols_ge
    omega
  exact ⟨d, max_one hcols, max_one d.rows_ge⟩

theorem step_created {a : Label} {s s' : State} (h : step a s = some s') (hs : Created s) :
    Created s' := by
  rcases hs with ⟨d, hcols, hrows⟩
  refine ⟨d, ?_⟩
  cases a with
  | resize d' =>
      cases h
      exact ⟨hcols, hrows⟩
  | start =>
      simp only [step, start] at h
      split at h
      · cases h
      · cases h
        exact ⟨hcols, hrows⟩
  | childExit =>
      cases h
      exact ⟨hcols, hrows⟩

/-- One step keeps the sizes in agreement exactly when it is no `start` away
from the size of creation. -/
theorem step_sizesAgree {a : Label} {s s' : State} (h : step a s = some s') (hs : Created s)
    (hagree : SizesAgree s) : SizesAgree s' ↔ StartsAtCreation a s := by
  cases a with
  | resize d =>
      cases h
      refine ⟨fun _ => trivial, fun _ hal => ?_⟩
      -- the grid and a running console get the same size
      rcases hagree hal with ⟨c, hc, -⟩
      exact ⟨coord d.cols d.rows, by simp [resize, hc], (d.agrees_iff _).2 rfl⟩
  | start =>
      simp only [step, start] at h
      split at h
      · cases h
      · cases h
        rcases hs with ⟨d, hcols, hrows⟩
        simp only [SizesAgree, StartsAtCreation, forall_const, Option.some.injEq, exists_eq_left',
          hcols, hrows]
        exact d.agrees_iff s.grid
  | childExit =>
      cases h
      exact ⟨fun _ => trivial, fun _ hal => by cases hal⟩

/-- A run from the creation with a size keeps the sizes in agreement exactly
when every `start` in it finds the grid at that size. -/
theorem sizes_agree_iff (d : Dims) (as : List Label) :
    machine.Along SizesAgree (create d.cols d.rows) as ↔
      machine.Meets StartsAtCreation (create d.cols d.rows) as := by
  refine Lts.Machine.along_iff_meets (I := Created) ?_ ?_ as ?_ ?_
  · exact fun a s s' hstep hs => step_created hstep hs
  · exact fun a s s' hstep hs hagree => step_sizesAgree hstep hs hagree
  · exact create_created d
  · intro hal
    cases hal

/-- 80 columns and 25 rows. -/
def small : Dims := ⟨80, 25, by decide, by decide, by decide, by decide⟩

/-- 100 columns and 30 rows. -/
def large : Dims := ⟨100, 30, by decide, by decide, by decide, by decide⟩

theorem resized_before_start : ¬ ∀ s, machine.Reachable (fun _ _ => True) s → SizesAgree s := by
  intro hall
  have hinit : machine.Init (create small.cols small.rows) := ⟨small, rfl⟩
  have hmeets : machine.Meets (fun _ _ => True) (create small.cols small.rows)
      [.resize large, .start] := by
    decide +kernel
  have htest : (machine.run (create small.cols small.rows) [.resize large, .start]).any
      (fun s => decide (s = ⟨80, 25, ⟨100, 30⟩, some ⟨80, 25⟩, true⟩)) = true := by
    decide +kernel
  rcases Lts.Machine.exists_reachable _ _ hinit hmeets htest with ⟨s, -, hreach, hs⟩
  have heq : s = ⟨80, 25, ⟨100, 30⟩, some ⟨80, 25⟩, true⟩ := of_decide_eq_true hs
  obtain ⟨c, hc, hagree⟩ := hall s hreach (by rw [heq])
  rw [heq] at hc hagree
  cases hc
  exact absurd hagree (by decide)

end RataShell.Sizes
