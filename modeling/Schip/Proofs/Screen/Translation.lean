import Schip.Proofs.Guarded.Scroll
import Schip.Proofs.Screen.Place

/-!
# Scrolls as translations

A scroll moves the picture by whole rows or columns, what comes in is dark, and every cell that it
writes is shown as it is, without afterglow (`Cell.absolute`). Down, each cell takes the pixel so
many rows above it, the hidden row included (`getElem?_scrollDown`). Sideways, one column at a time
is moved four times over; `MovesColumns` says what the visible rows hold after some of these moves,
by a map from each column to the one that its pixel came from, and that the hidden row is left
alone. Moves compose as their maps do (`MovesColumns.trans`), which carries one column over to four
by induction (`movesColumns_repeated`).

`scrolls_translate` adds that the loops that move the pixels in place, within one grid, get through
and end with these pictures.
-/

set_option autoImplicit false

namespace Schip

namespace Mode

/-- The column `n` columns to the right of another, if it exists. -/
def rightOf? (mode : Mode) (n col : Nat) : Option Nat :=
  if col + n < mode.width then some (col + n) else none

/-- The column `n` columns to the left of another, if it exists. -/
def leftOf? (n col : Nat) : Option Nat :=
  if n ≤ col then some (col - n) else none

/-- Going one column to the right and then more is going all of them at once. -/
theorem rightOf?_succ (mode : Mode) (n col : Nat) :
    (mode.rightOf? 1 col).bind (mode.rightOf? n) = mode.rightOf? (n + 1) col := by
  rw [rightOf?, rightOf?]
  by_cases hcol : col + 1 < mode.width
  · rw [if_pos hcol, Option.bind_some, rightOf?, Nat.add_assoc, Nat.add_comm 1]
  -- without a neighbour there is none further away
  · rw [if_neg hcol, Option.bind_none, if_neg (by omega)]

/-- Going one column to the left and then more is going all of them at once. -/
theorem leftOf?_succ (n col : Nat) : (leftOf? 1 col).bind (leftOf? n) = leftOf? (n + 1) col := by
  cases col with
  | zero => rfl
  | succ col =>
      simp only [leftOf?, Nat.le_add_left, if_true, Option.bind_some, Nat.add_sub_cancel,
        Nat.add_le_add_iff_right, Nat.add_sub_add_right]

end Mode

namespace FrameBuffer

/-- Logical pixel of a column in a row, dark where there is no column. -/
def logicalFrom (fb : FrameBuffer) (row : Nat) : Option Nat → UInt8
  | some col => fb.logicalAt (fb.mode.index row col)
  | none => 0

/-- The visible rows of `fb'` are those of `fb` with each column taken from another one, shown as
they are; the hidden row is the same. -/
structure MovesColumns (fb fb' : FrameBuffer) (source : Nat → Option Nat) : Prop where
  mode : fb'.mode = fb.mode
  size : fb'.cells.size = fb.cells.size
  visible : ∀ row col, row < fb.mode.height → col < fb.mode.width →
    fb'.cells[fb.mode.index row col]? = some (Cell.absolute (fb.logicalFrom row (source col)))
  hidden : ∀ col, col < fb.mode.width →
    fb'.cells[fb.mode.index fb.mode.height col]? = fb.cells[fb.mode.index fb.mode.height col]?

variable {fb fb' fb'' : FrameBuffer} {row col : Nat} {source source' : Nat → Option Nat}

theorem logicalAt_of_cell {i : Nat} {cell : Cell} (h : fb.cells[i]? = some cell) :
    fb.logicalAt i = cell.logical := by
  rw [logicalAt, h]
  rfl

theorem MovesColumns.wellFormed (h : fb.MovesColumns fb' source) (hwf : fb.WellFormed) :
    fb'.WellFormed := by
  rw [WellFormed, h.size, h.mode]
  exact hwf

/-- Two moves one after the other take a pixel from where the first took the one that the second
takes. -/
theorem MovesColumns.trans (h : fb.MovesColumns fb' source) (h' : fb'.MovesColumns fb'' source')
    (hinside : ∀ col k, col < fb.mode.width → source' col = some k → k < fb.mode.width) :
    fb.MovesColumns fb'' fun col => (source' col).bind source := by
  obtain ⟨hmode, hsize, hvisible, hhidden⟩ := h
  obtain ⟨hmode', hsize', hvisible', hhidden'⟩ := h'
  rw [hmode] at hmode' hvisible' hhidden'
  constructor
  case mode => exact hmode'
  case size => exact hsize'.trans hsize
  case hidden =>
    intro col hcol
    rw [hhidden' col hcol, hhidden col hcol]
  case visible =>
    intro row col hrow hcol
    rw [hvisible' row col hrow hcol]
    cases hfrom : source' col with
    | none => rfl
    | some k =>
        have hcell := hvisible row k hrow (hinside col k hcol hfrom)
        have hpixel : fb'.logicalFrom row (some k) = fb.logicalFrom row (source k) := by
          rw [logicalFrom, hmode]
          exact logicalAt_of_cell hcell
        rw [hpixel, Option.bind_some]

/-- A move of the columns made again and again. -/
theorem movesColumns_repeated {edit : FrameBuffer → FrameBuffer} {source : Nat → Nat → Option Nat}
    (hwf : fb.WellFormed)
    (hedit : ∀ fb' : FrameBuffer, fb'.WellFormed → fb'.mode = fb.mode →
      fb'.MovesColumns (edit fb') (source 1))
    (hinside : ∀ col k, col < fb.mode.width → source 1 col = some k → k < fb.mode.width)
    (hsource : ∀ n col, (source 1 col).bind (source n) = source (n + 1) col) (n : Nat) :
    fb.MovesColumns (repeated edit (n + 1) fb) (source (n + 1)) := by
  induction n with
  | zero => exact hedit fb hwf rfl
  | succ n ih =>
      have hlast := hedit _ (ih.wellFormed hwf) ih.mode
      have hboth := ih.trans hlast hinside
      rw [repeated_succ]
      rw [funext (hsource (n + 1))] at hboth
      exact hboth

/-! ## Sideways -/

/-- A rewriting of the visible rows by one column, from the cells that it puts there. -/
theorem movesColumns_mapIdx {f : Nat → Cell → Cell} (hwf : fb.WellFormed)
    (hhidden : ∀ i cell, fb.mode.visibleCells ≤ i → f i cell = cell)
    (hvisible : ∀ row col cell, row < fb.mode.height → col < fb.mode.width →
      f (fb.mode.index row col) cell = Cell.absolute (fb.logicalFrom row (source col))) :
    fb.MovesColumns { fb with cells := fb.cells.mapIdx f } source := by
  constructor
  case mode => rfl
  case size => exact Array.size_mapIdx
  case visible =>
    intro row col hrow hcol
    obtain ⟨cell, hcell⟩ := hwf.exists_cell ⟨Nat.le_of_lt hrow, hcol⟩
    show (fb.cells.mapIdx f)[fb.mode.index row col]? = _
    rw [Array.getElem?_mapIdx, hcell, Option.map_some, hvisible row col cell hrow hcol]
  case hidden =>
    intro col hcol
    obtain ⟨cell, hcell⟩ := hwf.exists_cell ⟨Nat.le_refl _, hcol⟩
    have hbelow : fb.mode.visibleCells ≤ fb.mode.index fb.mode.height col := by
      rw [Mode.visibleCells, Mode.index, Nat.mul_comm]
      exact Nat.le_add_right _ _
    show (fb.cells.mapIdx f)[fb.mode.index fb.mode.height col]? = _
    rw [Array.getElem?_mapIdx, hcell, Option.map_some, hhidden _ cell hbelow]

/-- A shift by one column to the left takes each pixel from its neighbour on the right. -/
theorem movesColumns_leftColumn (hwf : fb.WellFormed) :
    fb.MovesColumns fb.leftColumn (fb.mode.rightOf? 1) := by
  apply movesColumns_mapIdx hwf
  · intro i cell hi
    exact if_pos hi
  · intro row col cell hrow hcol
    have hin := (index_lt_visibleCells hcol).2 hrow
    rw [if_neg (Nat.not_le.2 hin), index_mod_width hcol, Mode.rightOf?]
    split
    · rfl
    · rfl

/-- A shift by one column to the right takes each pixel from its neighbour on the left. -/
theorem movesColumns_rightColumn (hwf : fb.WellFormed) :
    fb.MovesColumns fb.rightColumn (Mode.leftOf? 1) := by
  apply movesColumns_mapIdx hwf
  · intro i cell hi
    exact if_pos hi
  · intro row col cell hrow hcol
    have hin := (index_lt_visibleCells hcol).2 hrow
    rw [if_neg (Nat.not_le.2 hin), index_mod_width hcol]
    cases col with
    | zero => rfl
    | succ col => rfl

/-- Scrolling to the left moves the pixels by four columns. -/
theorem movesColumns_scrollLeft (hwf : fb.WellFormed) :
    fb.MovesColumns fb.scrollLeft (fb.mode.rightOf? 4) := by
  apply movesColumns_repeated hwf
  · intro fb' hwf' hmode
    rw [← hmode]
    exact movesColumns_leftColumn hwf'
  · intro col k _ hk
    rw [Mode.rightOf?] at hk
    split at hk
    · next hin => exact Option.some.inj hk ▸ hin
    · cases hk
  · exact fb.mode.rightOf?_succ

/-- Scrolling to the right moves the pixels by four columns. -/
theorem movesColumns_scrollRight (hwf : fb.WellFormed) :
    fb.MovesColumns fb.scrollRight (Mode.leftOf? 4) := by
  apply movesColumns_repeated hwf
  · intro fb' hwf' _
    exact movesColumns_rightColumn hwf'
  · intro col k hcol hk
    rw [Mode.leftOf?] at hk
    split at hk
    · exact Option.some.inj hk ▸ Nat.lt_of_le_of_lt (Nat.sub_le col 1) hcol
    · cases hk
  · exact Mode.leftOf?_succ

/-! ## Down -/

/-- Every cell takes the pixel `lines` rows above it. -/
theorem getElem?_scrollDown (hwf : fb.WellFormed) (lines : Nat) (hin : fb.mode.Contains row col) :
    (fb.scrollDown lines).cells[fb.mode.index row col]? = some (Cell.absolute
      (if lines ≤ row then fb.logicalAt (fb.mode.index (row - lines) col) else 0)) := by
  obtain ⟨cell, hcell⟩ := hwf.exists_cell hin
  have hsize : fb.mode.index row col < fb.cells.size := hwf ▸ index_lt_totalCells hin
  have hcol := hin.col_lt
  rw [scrollDown]
  show (fb.cells.mapIdx _)[fb.mode.index row col]? = _
  rw [Array.getElem?_mapIdx, hcell, Option.map_some]
  by_cases hrow : lines ≤ row
  · have hle : lines * fb.mode.width ≤ row * fb.mode.width := Nat.mul_le_mul_right _ hrow
    have hrows : fb.mode.index row col =
        fb.mode.width * lines + fb.mode.index (row - lines) col := by
      rw [Mode.index, Mode.index, Nat.sub_mul, Nat.mul_comm fb.mode.width]
      omega
    have hshift : fb.downShift lines = fb.mode.width * lines := by
      rw [downShift]
      omega
    rw [if_neg (by omega), if_pos hrow, hshift, hrows, Nat.add_sub_cancel_left]
  -- the whole row comes from above the grid, however far the scroll goes
  · have hle : (row + 1) * fb.mode.width ≤ lines * fb.mode.width :=
      Nat.mul_le_mul_right _ (Nat.not_le.1 hrow)
    have hrows : fb.mode.index row col < fb.mode.width * lines := by
      rw [Nat.succ_mul] at hle
      rw [Mode.index, Nat.mul_comm fb.mode.width]
      omega
    have hshift : fb.mode.index row col < fb.downShift lines := by
      rw [downShift]
      omega
    rw [if_pos hshift, if_neg hrow]

/-- On a well-formed grid the loops of the three scrolls get through, and they end with the picture
moved down by any byte of rows, or by four columns to either side. -/
theorem scrolls_translate (hwf : fb.WellFormed) :
    (∀ n : UInt8,
      (Guarded.Screen.of fb).scrollDown? n.toNat =
          some (Guarded.Screen.of (fb.scrollDown n.toNat)) ∧
        (fb.scrollDown n.toNat).mode = fb.mode ∧ (fb.scrollDown n.toNat).WellFormed ∧
        ∀ row col, fb.mode.Contains row col →
          (fb.scrollDown n.toNat).cells[fb.mode.index row col]? = some (Cell.absolute
            (if n.toNat ≤ row then fb.logicalAt (fb.mode.index (row - n.toNat) col) else 0))) ∧
      ((Guarded.Screen.of fb).scrollRight? = some (Guarded.Screen.of fb.scrollRight) ∧
        fb.MovesColumns fb.scrollRight (Mode.leftOf? 4)) ∧
      ((Guarded.Screen.of fb).scrollLeft? = some (Guarded.Screen.of fb.scrollLeft) ∧
        fb.MovesColumns fb.scrollLeft (fb.mode.rightOf? 4)) := by
  refine ⟨?_, ⟨?_, ?_⟩, ⟨?_, ?_⟩⟩
  · intro n
    have hlines := Guarded.Screen.width_mul_lt_wordLimit fb.mode n
    refine ⟨Guarded.Screen.scrollDown?_of hwf hlines, rfl, hwf.scrollDown n.toNat, ?_⟩
    intro row col hin
    exact getElem?_scrollDown hwf n.toNat hin
  · exact Guarded.Screen.scrollRight?_of hwf
  · exact movesColumns_scrollRight hwf
  · exact Guarded.Screen.scrollLeft?_of hwf
  · exact movesColumns_scrollLeft hwf

/-- A pixel near the lower right corner goes down into the hidden row and off the grid, to the left
within its row, and to the right off the screen without coming to the row below. -/
theorem scrolls_translate_corner :
    let fb := new.setAbsolute (Mode.standard.index 31 62) 1
    fb.WellFormed ∧
      (fb.scrollDown 1).cells[Mode.standard.index 32 62]? = some (Cell.absolute 1) ∧
      (fb.scrollDown 255).cells[Mode.standard.index 32 62]? = some (Cell.absolute 0) ∧
      fb.scrollLeft.cells[Mode.standard.index 31 58]? = some (Cell.absolute 1) ∧
      fb.scrollRight.cells[Mode.standard.index 31 62]? = some (Cell.absolute 0) ∧
      fb.scrollRight.cells[Mode.standard.index 32 2]? = some Cell.blank := by
  intro fb
  have hwf : fb.WellFormed := wellFormed_new.setAbsolute _ _
  have hcells : ∀ row col, Mode.standard.Contains row col →
      fb.cells[Mode.standard.index row col]? = some
        (if Mode.standard.index row col = Mode.standard.index 31 62 then Cell.absolute 1
          else Cell.blank) := by
    intro row col hin
    refine (getElem?_setCell new _ _ _).trans ?_
    rw [getElem?_new hin]
    split <;> rfl
  have hlit : fb.logicalAt (Mode.standard.index 31 62) = 1 :=
    logicalAt_of_cell (hcells 31 62 ⟨by decide, by decide⟩)
  have hdark : fb.logicalAt (Mode.standard.index 31 58) = 0 :=
    logicalAt_of_cell (hcells 31 58 ⟨by decide, by decide⟩)
  have hhidden : fb.cells[Mode.standard.index 32 2]? = some Cell.blank :=
    hcells 32 2 ⟨by decide, by decide⟩
  obtain ⟨hdown, ⟨-, hright⟩, -, hleft⟩ := scrolls_translate hwf
  obtain ⟨-, -, -, hone⟩ := hdown 1
  obtain ⟨-, -, -, hall⟩ := hdown 255
  have hshown : ∀ {v v' : UInt8}, v = v' → some (Cell.absolute v) = some (Cell.absolute v') :=
    fun hv => congrArg (some ∘ Cell.absolute) hv
  refine ⟨hwf, ?_, ?_, ?_, ?_, ?_⟩
  · exact (hone 32 62 ⟨by decide, by decide⟩).trans (hshown ((if_pos (by decide)).trans hlit))
  · exact (hall 32 62 ⟨by decide, by decide⟩).trans (hshown (if_neg (by decide)))
  · exact (hleft.visible 31 58 (by decide) (by decide)).trans (hshown hlit)
  · exact (hright.visible 31 62 (by decide) (by decide)).trans (hshown hdark)
  · exact (hright.hidden 2 (by decide)).trans hhidden

end FrameBuffer

end Schip
