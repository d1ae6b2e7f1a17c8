import Schip.FrameBuffer

/-!
# One pixel

The three things that the exclusive-or of a pixel can do: nothing, when the bit is zero or the place
is outside the grid; switch a lit cell off; switch any other cell on. `setPixel_cases` says so with
the condition of each case, and later modules take the operation apart by it alone.
-/

set_option autoImplicit false

namespace Schip

theorem Cell.logical_age (cell : Cell) : cell.age.logical = cell.logical := by
  rw [Cell.age]
  split
  · split <;> rfl
  · rfl

namespace FrameBuffer

/-- Frame buffer with one cell replaced; an index outside the grid changes nothing. -/
def setCell (fb : FrameBuffer) (index : Nat) (cell : Cell) : FrameBuffer :=
  { fb with cells := fb.cells.setIfInBounds index cell }

theorem setAbsolute_eq_setCell (fb : FrameBuffer) (index : Nat) (value : UInt8) :
    fb.setAbsolute index value = fb.setCell index (Cell.absolute value) := rfl

/-- No cell is addressed: the bit is zero, or the place is outside the grid. -/
def Misses (fb : FrameBuffer) (row col : Nat) (bit : UInt8) : Prop :=
  bit = 0 ∨ fb.mode.width ≤ col ∨ fb.cells[fb.mode.index row col]? = none

/-- The cell that a pixel addresses. -/
structure Hits (fb : FrameBuffer) (row col : Nat) (bit : UInt8) (cell : Cell) : Prop where
  bit_ne_zero : bit ≠ 0
  col_lt : col < fb.mode.width
  cell_eq : fb.cells[fb.mode.index row col]? = some cell

variable {fb : FrameBuffer} {row col : Nat} {bit : UInt8} {cell : Cell}

/-- A toggle either misses or hits a cell. -/
theorem misses_or_hits (fb : FrameBuffer) (row col : Nat) (bit : UInt8) :
    fb.Misses row col bit ∨ ∃ cell, fb.Hits row col bit cell := by
  by_cases hbit : bit = 0
  · exact Or.inl (Or.inl hbit)
  · rcases Nat.lt_or_ge col fb.mode.width with hcol | hcol
    -- the column exists, so the row alone decides whether there is a cell
    · cases hc : fb.cells[fb.mode.index row col]? with
      | none => exact Or.inl (Or.inr (Or.inr hc))
      | some cell => exact Or.inr ⟨cell, hbit, hcol, hc⟩
    · exact Or.inl (Or.inr (Or.inl hcol))

/-- A toggle that misses changes nothing and reports no collision. -/
theorem setPixel_of_misses (h : fb.Misses row col bit) : fb.setPixel row col bit = (false, fb) := by
  rw [setPixel]
  rcases h with hbit | hcol | hnone
  · rw [if_pos (Or.inl hbit)]
  · rw [if_pos (Or.inr hcol)]
  · simp only [hnone, ite_self]

/-- A toggle that hits a lit cell switches it off and reports the collision. -/
theorem setPixel_of_lit (h : fb.Hits row col bit cell) (hlit : cell.logical = 1) :
    fb.setPixel row col bit =
      (true, fb.setCell (fb.mode.index row col)
        (cell.extinguish fb.reduceFlicker fb.decayDelay)) := by
  have hin : ¬(bit = 0 ∨ fb.mode.width ≤ col) := by
    rintro (hbit | hcol)
    · exact h.bit_ne_zero hbit
    · exact Nat.not_le.2 h.col_lt hcol
  simp only [setPixel, if_neg hin, h.cell_eq, if_pos hlit, setCell]

/-- A toggle that hits a dark cell lights it and reports no collision. -/
theorem setPixel_of_unlit (h : fb.Hits row col bit cell) (hlit : cell.logical ≠ 1) :
    fb.setPixel row col bit =
      (false, fb.setCell (fb.mode.index row col) (cell.light (row < fb.mode.height))) := by
  have hin : ¬(bit = 0 ∨ fb.mode.width ≤ col) := by
    rintro (hbit | hcol)
    · exact h.bit_ne_zero hbit
    · exact Nat.not_le.2 h.col_lt hcol
  simp only [setPixel, if_neg hin, h.cell_eq, if_neg hlit, setCell]

/-- Everything that the exclusive-or of a pixel can do. -/
theorem setPixel_cases (fb : FrameBuffer) (row col : Nat) (bit : UInt8) :
    (fb.Misses row col bit ∧ fb.setPixel row col bit = (false, fb)) ∨
      (∃ cell, fb.Hits row col bit cell ∧ cell.logical = 1 ∧
        fb.setPixel row col bit =
          (true, fb.setCell (fb.mode.index row col)
            (cell.extinguish fb.reduceFlicker fb.decayDelay))) ∨
      ∃ cell, fb.Hits row col bit cell ∧ cell.logical ≠ 1 ∧
        fb.setPixel row col bit =
          (false, fb.setCell (fb.mode.index row col) (cell.light (row < fb.mode.height))) := by
  rcases misses_or_hits fb row col bit with hmiss | ⟨cell, hhit⟩
  · exact Or.inl ⟨hmiss, setPixel_of_misses hmiss⟩
  · by_cases hlit : cell.logical = 1
    · exact Or.inr (Or.inl ⟨cell, hhit, hlit, setPixel_of_lit hhit hlit⟩)
    · exact Or.inr (Or.inr ⟨cell, hhit, hlit, setPixel_of_unlit hhit hlit⟩)

/-- Cells after one is replaced. -/
theorem getElem?_setCell (fb : FrameBuffer) (index i : Nat) (cell : Cell) :
    (fb.setCell index cell).cells[i]? =
      if i = index then fb.cells[i]?.map fun _ => cell else fb.cells[i]? := by
  simp only [setCell, Array.getElem?_setIfInBounds]
  by_cases hi : i = index
  · subst hi
    by_cases hsize : i < fb.cells.size
    · simp [hsize]
    · simp [hsize]
  · rw [if_neg (fun h => hi h.symm), if_neg hi]

/-- A cell replaced by itself. -/
theorem setCell_self {index : Nat} (h : fb.cells[index]? = some cell) :
    fb.setCell index cell = fb := by
  obtain ⟨hindex, hcell⟩ := Array.getElem?_eq_some_iff.1 h
  rw [← hcell]
  simp [setCell, Array.setIfInBounds, hindex]

/-- A place in an existing column is in a visible row exactly if its index is that of a visible
cell. -/
theorem index_lt_visibleCells {mode : Mode} {row col : Nat} (hcol : col < mode.width) :
    mode.index row col < mode.visibleCells ↔ row < mode.height := by
  rw [Mode.index, Mode.visibleCells, Nat.mul_comm mode.width]
  constructor
  · intro h
    rcases Nat.lt_or_ge row mode.height with hrow | hrow
    · exact hrow
    -- a hidden row starts only after all visible cells
    · have hle : mode.height * mode.width ≤ row * mode.width := Nat.mul_le_mul_right _ hrow
      omega
  · intro hrow
    -- the whole row lies before the end of the visible cells
    have hle : (row + 1) * mode.width ≤ mode.height * mode.width := Nat.mul_le_mul_right _ hrow
    rw [Nat.succ_mul] at hle
    omega

end FrameBuffer

end Schip
