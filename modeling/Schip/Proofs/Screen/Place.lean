import Schip.Proofs.Screen.Pixel

/-!
# Places on the grid

A place is a row and a column, the hidden row included. Every cell has exactly one
(`exists_place`, `index_injective`), so what is said of all places is said of all cells. A
well-formed frame buffer has a cell at each place (`WellFormed.exists_cell`), and the visible cells
are those at the places of the visible rows (`getElem?_visible`, `index_lt_visibleCells`).
-/

set_option autoImplicit false

namespace Schip

/-- Row and column of a cell of the grid. -/
structure Mode.Contains (mode : Mode) (row col : Nat) : Prop where
  row_le : row ≤ mode.height
  col_lt : col < mode.width

namespace FrameBuffer

variable {fb : FrameBuffer} {mode : Mode} {row col row' col' : Nat} {cell : Cell}

theorem index_div_width (hcol : col < mode.width) : mode.index row col / mode.width = row := by
  rw [Mode.index, Nat.mul_comm, Nat.mul_add_div (Nat.zero_lt_of_lt hcol), Nat.div_eq_of_lt hcol,
    Nat.add_zero]

theorem index_mod_width (hcol : col < mode.width) : mode.index row col % mode.width = col := by
  rw [Mode.index, Nat.mul_comm, Nat.mul_add_mod, Nat.mod_eq_of_lt hcol]

/-- Two places with the same index are the same place. -/
theorem index_injective (hcol : col < mode.width) (hcol' : col' < mode.width)
    (h : mode.index row col = mode.index row' col') : row = row' ∧ col = col' := by
  constructor
  · have hrow := congrArg (· / mode.width) h
    simp only [index_div_width hcol, index_div_width hcol'] at hrow
    exact hrow
  · have hrest := congrArg (· % mode.width) h
    simp only [index_mod_width hcol, index_mod_width hcol'] at hrest
    exact hrest

/-- A place of the grid has its cell among those of the mode. -/
theorem index_lt_totalCells (h : mode.Contains row col) : mode.index row col < mode.totalCells := by
  obtain ⟨hrow, hcol⟩ := h
  have hrows : (row + 1) * mode.width ≤ (mode.height + 1) * mode.width :=
    Nat.mul_le_mul_right _ (Nat.succ_le_succ hrow)
  rw [Nat.succ_mul] at hrows
  rw [Mode.index, Mode.totalCells, Nat.mul_comm mode.width]
  omega

/-- Every cell has a place. -/
theorem exists_place {i : Nat} (h : i < mode.totalCells) :
    ∃ row col, mode.Contains row col ∧ mode.index row col = i := by
  have hwidth : 0 < mode.width := by cases mode <;> decide
  refine ⟨i / mode.width, i % mode.width, ⟨?_, Nat.mod_lt i hwidth⟩, Nat.div_add_mod' i _⟩
  exact Nat.le_of_lt_succ (Nat.div_lt_of_lt_mul h)

/-- Every place of a well-formed grid has a cell. -/
theorem WellFormed.exists_cell (h : fb.WellFormed) (hin : fb.mode.Contains row col) :
    ∃ cell, fb.cells[fb.mode.index row col]? = some cell := by
  have hindex : fb.mode.index row col < fb.cells.size := h ▸ index_lt_totalCells hin
  exact ⟨_, Array.getElem?_eq_getElem hindex⟩

/-- Only cells of visible rows are shown. -/
theorem getElem?_visible (fb : FrameBuffer) (i : Nat) :
    fb.visible[i]? = if i < fb.mode.visibleCells then fb.cells[i]? else none := by
  rw [visible, Array.getElem?_extract, Nat.sub_zero, Nat.zero_add]
  by_cases hi : i < fb.mode.visibleCells
  · rw [if_pos hi]
    by_cases hsize : i < fb.cells.size
    · rw [if_pos (Nat.lt_min.2 ⟨hi, hsize⟩)]
    -- the grid ends before the visible cells do
    · rw [if_neg (fun h => hsize (Nat.lt_min.1 h).2),
        Array.getElem?_eq_none (Nat.not_lt.1 hsize)]
  · rw [if_neg hi, if_neg (fun h => hi (Nat.lt_min.1 h).1)]

theorem getElem?_new (hin : Mode.standard.Contains row col) :
    new.cells[Mode.standard.index row col]? = some Cell.blank :=
  Array.getElem?_replicate.trans (if_pos (index_lt_totalCells hin))

theorem pixel?_of_cell (h : fb.cells[fb.mode.index row col]? = some cell) :
    fb.pixel? row col = some cell.logical := by
  rw [pixel?, h, Option.map_some]

theorem exists_cell_of_pixel? {old : UInt8} (h : fb.pixel? row col = some old) :
    ∃ cell, fb.cells[fb.mode.index row col]? = some cell ∧ cell.logical = old :=
  Option.map_eq_some_iff.1 h

/-- Exclusive-or of the pixel itself. -/
theorem pixel?_setPixel_self {bit old : UInt8} (hbit : bit ≠ 0) (hcol : col < fb.mode.width)
    (hold : fb.pixel? row col = some old) :
    (fb.setPixel row col bit).2.pixel? row col = some (if old = 1 then 0 else 1) := by
  obtain ⟨cell, hcell, rfl⟩ := exists_cell_of_pixel? hold
  have hhit : fb.Hits row col bit cell := ⟨hbit, hcol, hcell⟩
  have hnew : ∀ new, (fb.setCell (fb.mode.index row col) new).pixel? row col =
      some new.logical := by
    intro new
    apply pixel?_of_cell
    show (fb.setCell (fb.mode.index row col) new).cells[fb.mode.index row col]? = some new
    rw [getElem?_setCell, if_pos rfl, hcell, Option.map_some]
  by_cases hlit : cell.logical = 1
  · rw [setPixel_of_lit hhit hlit, if_pos hlit]
    exact hnew _
  · rw [setPixel_of_unlit hhit hlit, if_neg hlit]
    exact hnew _

theorem isRendered?_of_cell (hrow : row < fb.mode.height)
    (h : fb.cells[fb.mode.index row col]? = some cell) :
    fb.isRendered? row col = some (cell.render == 1) := by
  rw [isRendered?, if_pos hrow, h, Option.map_some]

end FrameBuffer

end Schip
