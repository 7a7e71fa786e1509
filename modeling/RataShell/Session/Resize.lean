import RataShell.Session.Size

/-!
# A resize that can fail

`Session::resize` sets the terminal grid first and then asks the pseudo console,
which can refuse. Both sides clamp the same two numbers, each in its own way.

* `coord_agrees_iff`: the two clamps agree from 2 columns on, as long as a
  `COORD` can hold the numbers.
* `resize_consistent_iff`: when a resize leaves the two sides with one size, or
  with the sizes they had.
-/

namespace RataShell.Sizes

variable {ε : Type}

/-! ## The call -/

/-- `PtyHost::resize`: where `ResizePseudoConsole` fails, the console keeps its
size. -/
def ptyResize (resizePseudoConsole : Coord → Except ε Unit) (cols rows : UInt16) (c : Coord) :
    Coord × Except ε Unit :=
  match resizePseudoConsole (coord cols rows) with
  | .ok () => (coord cols rows, .ok ())
  | .error e => (c, .error e)

/-- `TermHost::resize`, its size. -/
def termResize (cols rows : UInt16) (s : State) : State :=
  { s with grid := Size.new cols.toNat rows.toNat }

/-- `Session::resize` with its result. -/
def resizeResult (resizePseudoConsole : Coord → Except ε Unit) (cols rows : UInt16) (s : State) :
    State × Except ε Unit :=
  match s.pty with
  | none => (termResize cols rows s, .ok ())
  | some c =>
      let (c', res) := ptyResize resizePseudoConsole cols rows c
      ({ termResize cols rows s with pty := some c' }, res)

/-- The sizes after a resize: one positive size on both sides, or after an error
the sizes before it. -/
def Consistent (s : State) : State × Except ε Unit → Prop
  | (s', .ok _) => ∃ c, s'.pty = some c ∧ c.Agrees s'.grid ∧ 0 < s'.grid.cols ∧ 0 < s'.grid.lines
  | (s', .error _) => s'.grid = s.grid ∧ s'.pty = s.pty

section Calls

variable {api : Coord → Except ε Unit} {cols rows : UInt16} {s : State} {c : Coord}

/-- A call that the console accepts is the resize of a running session. -/
theorem resizeResult_ok (hpty : s.pty = some c) (hapi : api (coord cols rows) = .ok ()) :
    resizeResult api cols rows s = (resize cols rows s, .ok ()) := by
  simp [resizeResult, ptyResize, hpty, hapi, resize, termResize]

/-- A call that the console refuses has set the grid. -/
theorem resizeResult_error (hpty : s.pty = some c) {e : ε}
    (hapi : api (coord cols rows) = .error e) :
    resizeResult api cols rows s = (termResize cols rows s, .error e) := by
  cases s
  cases hpty
  simp [resizeResult, ptyResize, hapi, termResize]

end Calls

/-! ## The two clamps -/

theorem max_one_toNat (n : UInt16) : (max n 1).toNat = max n.toNat 1 := by
  show (if n ≤ 1 then (1 : UInt16) else n).toNat = _
  have hone : (1 : UInt16).toNat = 1 := rfl
  split
  · rename_i hle
    have hle' : n.toNat ≤ 1 := hle
    omega
  · rename_i hgt
    have hgt' : ¬ n.toNat ≤ 1 := hgt
    omega

/-- The conversion of a length to 16 signed bits. -/
theorem toInt16_toInt (n : UInt16) :
    n.toInt16.toInt = if n.toNat ≤ 32767 then (n.toNat : Int) else n.toNat - 65536 := by
  have hlt := n.toNat_lt
  have hnat : n.toBitVec.toNat = n.toNat := rfl
  show n.toBitVec.toInt = _
  rw [BitVec.toInt_eq_toNat_cond]
  split <;> split <;> omega

/-- The console gets the size of the grid from 2 columns on, within 15 bits. -/
theorem coord_agrees_iff (cols rows : UInt16) :
    (coord cols rows).Agrees (Size.new cols.toNat rows.toNat) ↔
      2 ≤ cols.toNat ∧ cols.toNat ≤ 32767 ∧ rows.toNat ≤ 32767 := by
  have hcols := cols.toNat_lt
  have hrows := rows.toNat_lt
  unfold Coord.Agrees coord Size.new
  simp only [toInt16_toInt, max_one_toNat]
  constructor
  · rintro ⟨hX, hY⟩
    split at hX <;> split at hY <;> omega
  · rintro ⟨hge, hle, hle'⟩
    rw [if_pos (by omega), if_pos (by omega)]
    omega

/-! ## Results -/

/-- A resize of a running session is consistent exactly when the console accepts
a size that both clamps leave alike, or refuses one that the grid has already. -/
theorem resize_consistent_iff (api : Coord → Except ε Unit) (cols rows : UInt16) {s : State}
    {c : Coord} (hpty : s.pty = some c) :
    Consistent s (resizeResult api cols rows s) ↔
      (∃ u, api (coord cols rows) = .ok u) ∧
          2 ≤ cols.toNat ∧ cols.toNat ≤ 32767 ∧ rows.toNat ≤ 32767 ∨
        (∃ e, api (coord cols rows) = .error e) ∧ Size.new cols.toNat rows.toNat = s.grid := by
  cases hapi : api (coord cols rows) with
  | ok u =>
      cases u
      rw [resizeResult_ok hpty hapi, ← coord_agrees_iff]
      have hcols : 0 < max cols.toNat 2 := by omega
      have hrows : 0 < max rows.toNat 1 := by omega
      simp [Consistent, resize, hpty, Size.new, hcols, hrows]
  | error e =>
      rw [resizeResult_error hpty hapi]
      simp [Consistent, termResize]

/-- A session of 80 columns and 25 rows that runs. -/
def running : State := { create 80 25 with pty := some (coord 80 25), alive := true }

theorem resize_running_consistent :
    Consistent running (resizeResult (fun _ => (.ok () : Except Unit Unit)) 100 30 running) :=
  (resize_consistent_iff _ 100 30 (c := ⟨80, 25⟩) rfl).2
    (.inl ⟨⟨(), rfl⟩, by decide, by decide, by decide⟩)

/-- One column is two for the grid; and a refused size stays in the grid. -/
theorem resize_inconsistent :
    ¬ Consistent running (resizeResult (fun _ => (.ok () : Except Unit Unit)) 1 25 running) ∧
    ¬ Consistent running
      (resizeResult (fun _ => (.error () : Except Unit Unit)) 100 30 running) := by
  constructor
  · rintro ⟨c, hc, hagree, -⟩
    cases hc
    exact absurd hagree (by decide)
  · rintro ⟨hgrid, -⟩
    exact absurd hgrid (by decide)

end RataShell.Sizes
