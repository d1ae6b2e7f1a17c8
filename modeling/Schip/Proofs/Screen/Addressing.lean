import Schip.FrameBuffer.Checked
import Schip.Proofs.Guarded.Scroll
import Schip.Proofs.Screen.Coverage
import Schip.Proofs.Screen.SameOptions

/-!
# The cell that a pixel addresses

A pixel comes with a row and a column, but the grid is looked up by an index, and no test other than
that of the index is made on the row. This is enough: the places of the grid have different indices,
and a row below the hidden one starts past the last cell. So the exclusive-or of a pixel toggles the
cell at its place and no other, and one whose place is not on the grid changes nothing
(`toggles_addressed_cell`).

With rows and columns that are machine words the index may be none. Then the operation is refused,
although the place is as far from the grid as a place can be (`far_row_refused`).
-/

set_option autoImplicit false

namespace Schip.FrameBuffer

variable {fb : FrameBuffer} {row col : Nat} {bit : UInt8}

/-- The logical pixel at a place is toggled; no other cell, and nothing but cells, is touched. -/
structure Toggled (fb fb' : FrameBuffer) (row col : Nat) (old : UInt8) : Prop where
  mode_eq : fb'.mode = fb.mode
  options : fb'.SameOptions fb
  size_eq : fb'.cells.size = fb.cells.size
  before : fb.pixel? row col = some old
  after : fb'.pixel? row col = some (old ^^^ 1)
  others : ∀ row' col', fb.mode.Contains row' col' → (row', col') ≠ (row, col) →
    fb'.cells[fb.mode.index row' col']? = fb.cells[fb.mode.index row' col']?

/-- A row below the hidden one starts past the last cell. -/
theorem totalCells_le_index {mode : Mode} (hrow : mode.height < row) :
    mode.totalCells ≤ mode.index row col := by
  have hrows : (mode.height + 1) * mode.width ≤ row * mode.width :=
    Nat.mul_le_mul_right _ (Nat.succ_le_of_lt hrow)
  rw [Mode.totalCells, Mode.index, Nat.mul_comm mode.width]
  exact Nat.le_trans hrows (Nat.le_add_right _ _)

/-- A pixel that is zero or outside the grid addresses no cell. -/
theorem WellFormed.misses (hwf : fb.WellFormed) (h : ¬(bit ≠ 0 ∧ fb.mode.Contains row col)) :
    fb.Misses row col bit := by
  by_cases hbit : bit = 0
  · exact Or.inl hbit
  rcases Nat.lt_or_ge col fb.mode.width with hcol | hcol
  -- the column exists, so it is the row that is outside
  · have hrow : fb.mode.height < row :=
      Nat.lt_of_not_le fun hrow => h ⟨hbit, hrow, hcol⟩
    have hsize : fb.cells.size ≤ fb.mode.index row col := by
      rw [hwf]
      exact totalCells_le_index hrow
    exact Or.inr (Or.inr (Array.getElem?_eq_none hsize))
  · exact Or.inr (Or.inl hcol)

theorem setPixel_toggled (hwf : fb.WellFormed) (hbits : fb.HasBits) (hbit : bit ≠ 0)
    (hin : fb.mode.Contains row col) :
    ∃ old : UInt8, (fb.setPixel row col bit).1 = decide (old = 1) ∧
      fb.Toggled (fb.setPixel row col bit).2 row col old := by
  obtain ⟨cell, hcell⟩ := hwf.exists_cell hin
  have hold := pixel?_of_cell hcell
  let p : PlacedPixel := ⟨row, col, bit⟩
  obtain ⟨hanswer, hnew⟩ := setPixel_of_covers (p := p) hbits hin ⟨hbit, rfl, rfl⟩ hold
  refine ⟨cell.logical, Bool.eq_iff_iff.2 (hanswer.trans decide_eq_true_iff.symm), ?_⟩
  refine ⟨mode_setPixel .., sameOptions_setPixel .., size_setPixel .., hold, hnew, ?_⟩
  intro row' col' hin' hne
  refine getElem?_setPixel_of_not_covers (p := p) hin'.col_lt ?_
  rintro ⟨-, rfl, rfl⟩
  exact hne rfl

theorem setPixelChecked?_of_word {row col : UInt64}
    (h : ¬(bit ≠ 0 ∧ col.toNat < fb.mode.width ∧
      wordLimit ≤ fb.mode.index row.toNat col.toNat)) :
    fb.setPixelChecked? row col bit = some (fb.setPixel row.toNat col.toNat bit) := by
  rw [setPixelChecked?]
  split
  · rfl
  · next hnot =>
      simp only [not_or, Nat.not_le, Nat.not_lt] at hnot
      exact absurd hnot h

/-- On a well-formed grid of zeros and ones a pixel that is not zero toggles the logical pixel at
its place, if that is on the grid, answers whether it was one, and leaves all other cells alone. All
other pixels change nothing and answer no, except those whose column exists and whose index is not
a word: they are refused. -/
theorem toggles_addressed_cell (hwf : fb.WellFormed) (hbits : fb.HasBits) (row col : UInt64)
    (bit : UInt8) :
    (bit ≠ 0 ∧ fb.mode.Contains row.toNat col.toNat → ∃ (old : UInt8) (fb' : FrameBuffer),
      fb.setPixelChecked? row col bit = some (decide (old = 1), fb') ∧
        fb.Toggled fb' row.toNat col.toNat old) ∧
      (¬(bit ≠ 0 ∧ fb.mode.Contains row.toNat col.toNat) →
        fb.setPixelChecked? row col bit =
          if bit ≠ 0 ∧ col.toNat < fb.mode.width ∧
              1 <<< 64 ≤ row.toNat * fb.mode.width + col.toNat then none
          else some (false, fb)) := by
  constructor
  · rintro ⟨hbit, hin⟩
    obtain ⟨old, hanswer, htoggled⟩ := setPixel_toggled hwf hbits hbit hin
    -- all indices of the grid are words
    have hword : fb.mode.index row.toNat col.toNat < wordLimit :=
      Nat.lt_trans (index_lt_totalCells hin) (Guarded.Screen.totalCells_lt_wordLimit fb.mode)
    refine ⟨old, (fb.setPixel row.toNat col.toNat bit).2, ?_, htoggled⟩
    rw [setPixelChecked?_of_word fun h => Nat.not_le.2 hword h.2.2, ← hanswer]
  · intro hout
    by_cases hfar : bit ≠ 0 ∧ col.toNat < fb.mode.width ∧
        wordLimit ≤ fb.mode.index row.toNat col.toNat
    · rw [(setPixelChecked?_eq_none_iff fb row col bit).2 hfar]
      exact (if_pos hfar).symm
    · rw [setPixelChecked?_of_word hfar, setPixel_of_misses (hwf.misses hout)]
      exact (if_neg hfar).symm

/-- The last cell of the hidden row, the last row whose indices are words, and the one after it. -/
theorem toggles_addressed_cell_far :
    new.WellFormed ∧ new.HasBits ∧
      (∃ fb', new.setPixelChecked? 32 63 1 = some (false, fb') ∧ fb'.pixel? 32 63 = some 1 ∧
        fb'.cells[Mode.standard.index 32 62]? = some Cell.blank) ∧
      new.setPixelChecked? 288230376151711743 63 1 = some (false, new) ∧
      new.setPixelChecked? 288230376151711744 0 1 = none := by
  have hfar : ∀ row col : UInt64, 32 < row.toNat →
      ¬((1 : UInt8) ≠ 0 ∧ new.mode.Contains row.toNat col.toNat) :=
    fun row col hrow h => absurd hrow (Nat.not_lt.2 h.2.row_le)
  refine ⟨wellFormed_new, hasBits_new, ?_, ?_, ?_⟩
  · obtain ⟨old, fb', heq, htoggled⟩ :=
      (toggles_addressed_cell wellFormed_new hasBits_new 32 63 1).1
        ⟨by decide, by decide, by decide⟩
    have hdark : new.pixel? 32 63 = some 0 := pixel?_new ⟨by decide, by decide⟩
    obtain rfl : 0 = old := Option.some.inj (hdark.symm.trans htoggled.before)
    have hin : Mode.standard.Contains 32 62 := ⟨by decide, by decide⟩
    exact ⟨fb', heq, htoggled.after,
      (htoggled.others 32 62 hin (by decide)).trans (getElem?_new hin)⟩
  · rw [(toggles_addressed_cell wellFormed_new hasBits_new 288230376151711743 63 1).2
      (hfar _ _ (by decide))]
    exact if_neg (by decide)
  · rw [(toggles_addressed_cell wellFormed_new hasBits_new 288230376151711744 0 1).2
      (hfar _ _ (by decide))]
    exact if_pos (by decide)

/-- A place outside the grid for which the answer is not no: its index is not a word. -/
theorem far_row_refused :
    new.WellFormed ∧ new.HasBits ∧
      ¬((1 : UInt8) ≠ 0 ∧ new.mode.Contains (288230376151711744 : UInt64).toNat (5 : UInt64).toNat) ∧
      new.setPixelChecked? 288230376151711744 5 1 ≠ some (false, new) := by
  refine ⟨wellFormed_new, hasBits_new, fun h => absurd h.2.row_le (by decide), ?_⟩
  rw [(setPixelChecked?_eq_none_iff new _ _ _).2 ⟨by decide, by decide, by decide⟩]
  simp

end Schip.FrameBuffer
