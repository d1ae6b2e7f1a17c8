import Schip.FrameBuffer.Scroll
import Schip.FrameBuffer.Sprite
import Schip.Proofs.Screen.Pixel

/-!
# Invariants of single cells

Five things can happen to a cell: it is blanked, it takes a copy of the logical pixel of some cell,
it is switched on, it is switched off while lit, it ages. A property of cells that survives all five
(`CellInvariant`) holds of every cell after every operation on the grid. The property may tell
visible cells from hidden ones, and switching off may rely on what is known of the two options of
the afterglow.

`Satisfies` is the property over the whole grid together with the knowledge of the options, and has
one lemma for each operation.
-/

set_option autoImplicit false

namespace Schip.FrameBuffer

/-- Every cell has a property, which may depend on whether the cell is visible. -/
def EachCell (fb : FrameBuffer) (Q : Bool → Cell → Prop) : Prop :=
  ∀ (i : Nat) (cell : Cell), fb.cells[i]? = some cell → Q (i < fb.mode.visibleCells) cell

/-- Property of cells that survives everything that can happen to a cell. -/
structure CellInvariant (options : Bool → UInt32 → Prop) (Q : Bool → Cell → Prop) : Prop where
  blank : ∀ visible, Q visible Cell.blank
  copy : ∀ visible visible' cell, Q visible cell → Q visible' (Cell.absolute cell.logical)
  light : ∀ visible cell, Q visible cell → Q visible (cell.light visible)
  extinguish : ∀ visible cell reduceFlicker delay, options reduceFlicker delay →
    cell.logical = 1 → Q visible cell → Q visible (cell.extinguish reduceFlicker delay)
  age : ∀ visible cell, Q visible cell → Q visible cell.age

/-- Grid on which the options are as known and every cell has the property. -/
structure Satisfies (fb : FrameBuffer) (options : Bool → UInt32 → Prop)
    (Q : Bool → Cell → Prop) : Prop where
  options : options fb.reduceFlicker fb.decayDelay
  cells : fb.EachCell Q

variable {fb : FrameBuffer} {options : Bool → UInt32 → Prop} {Q : Bool → Cell → Prop}

/-- What holds of each cell still does after one was replaced by a cell of which it holds. -/
theorem EachCell.setCell (h : fb.EachCell Q) {index : Nat} {new : Cell}
    (hnew : Q (index < fb.mode.visibleCells) new) : (fb.setCell index new).EachCell Q := by
  intro i cell hcell
  rw [getElem?_setCell] at hcell
  by_cases hi : i = index
  -- the new cell
  · rw [if_pos hi] at hcell
    obtain ⟨_, _, rfl⟩ := Option.map_eq_some_iff.1 hcell
    rw [hi]
    exact hnew
  -- a cell as before
  · rw [if_neg hi] at hcell
    exact h i cell hcell

theorem EachCell.mapIdx (h : fb.EachCell Q) {f : Nat → Cell → Cell}
    (hf : ∀ i cell, Q (i < fb.mode.visibleCells) cell → Q (i < fb.mode.visibleCells) (f i cell)) :
    EachCell { fb with cells := fb.cells.mapIdx f } Q := by
  intro i cell hcell
  rw [Array.getElem?_mapIdx] at hcell
  obtain ⟨old, hold, rfl⟩ := Option.map_eq_some_iff.1 hcell
  exact hf i old (h i old hold)

theorem EachCell.map (h : fb.EachCell Q) {f : Cell → Cell}
    (hf : ∀ visible cell, Q visible cell → Q visible (f cell)) :
    EachCell { fb with cells := fb.cells.map f } Q := by
  intro i cell hcell
  rw [Array.getElem?_map] at hcell
  obtain ⟨old, hold, rfl⟩ := Option.map_eq_some_iff.1 hcell
  exact hf _ old (h i old hold)

/-- The property of the cell at a place of a visible row. -/
theorem EachCell.of_visible (h : fb.EachCell Q) {row col : Nat} {cell : Cell}
    (hrow : row < fb.mode.height) (hcol : col < fb.mode.width)
    (hcell : fb.cells[fb.mode.index row col]? = some cell) : Q true cell := by
  have hvisible := (index_lt_visibleCells hcol).2 hrow
  have hcell := h _ cell hcell
  rw [decide_eq_true hvisible] at hcell
  exact hcell

/-- A copy of the logical pixel at any index has the property, also past the end of the grid. -/
theorem CellInvariant.copy_logicalAt (hQ : CellInvariant options Q) (h : fb.EachCell Q)
    (visible : Bool) (index : Nat) : Q visible (Cell.absolute (fb.logicalAt index)) := by
  rw [logicalAt]
  cases hcell : fb.cells[index]? with
  | none => exact hQ.blank visible
  | some cell => exact hQ.copy _ visible cell (h index cell hcell)

namespace CellInvariant

variable (hQ : CellInvariant options Q)
include hQ

theorem setMode (mode : Mode) (ho : options fb.reduceFlicker fb.decayDelay) :
    (fb.setMode mode).Satisfies options Q := by
  refine ⟨ho, fun i cell hcell => ?_⟩
  have hmem := Array.mem_of_getElem? hcell
  rw [Array.eq_of_mem_replicate hmem]
  exact hQ.blank _

theorem clear (h : fb.Satisfies options Q) : fb.clear.Satisfies options Q :=
  ⟨h.options, h.cells.map fun visible _ _ => hQ.blank visible⟩

theorem updateDecay (h : fb.Satisfies options Q) : fb.updateDecay.Satisfies options Q :=
  ⟨h.options, h.cells.map hQ.age⟩

theorem setPixel (h : fb.Satisfies options Q) (row col : Nat) (bit : UInt8) :
    (fb.setPixel row col bit).2.Satisfies options Q := by
  rcases setPixel_cases fb row col bit with
    ⟨-, heq⟩ | ⟨cell, hhit, hlit, heq⟩ | ⟨cell, hhit, -, heq⟩
  · rw [heq]
    exact h
  · rw [heq]
    exact ⟨h.options, h.cells.setCell
      (hQ.extinguish _ cell _ _ h.options hlit (h.cells _ cell hhit.cell_eq))⟩
  · rw [heq]
    -- the operation looks at the row, the property at the index; in an existing column they agree
    have hvisible : decide (row < fb.mode.height) =
        decide (fb.mode.index row col < fb.mode.visibleCells) :=
      decide_eq_decide.2 (index_lt_visibleCells hhit.col_lt).symm
    rw [hvisible]
    exact ⟨h.options, h.cells.setCell (hQ.light _ cell (h.cells _ cell hhit.cell_eq))⟩

theorem drawSprite (h : fb.Satisfies options Q) (x y rowWidth : Nat) (pixels : List UInt8) :
    (fb.drawSprite x y rowWidth pixels).2.Satisfies options Q := by
  rw [FrameBuffer.drawSprite]
  split
  · exact h
  · exact drawPlaced_preserves (Satisfies · options Q)
      (fun _ row col bit h => hQ.setPixel h row col bit) fb h _

theorem scrollDown (h : fb.Satisfies options Q) (lines : Nat) :
    (fb.scrollDown lines).Satisfies options Q := by
  refine ⟨h.options, h.cells.mapIdx fun i cell _ => ?_⟩
  split
  -- a row that comes in from above
  · exact hQ.blank _
  -- a copy from a row above, perhaps from a visible row into the hidden one
  · exact hQ.copy_logicalAt h.cells _ _

theorem leftColumn (h : fb.Satisfies options Q) : fb.leftColumn.Satisfies options Q := by
  refine ⟨h.options, h.cells.mapIdx fun i cell hcell => ?_⟩
  split
  -- the hidden row stays as it is
  · exact hcell
  · split
    · exact hQ.copy_logicalAt h.cells _ _
    · exact hQ.blank _

theorem rightColumn (h : fb.Satisfies options Q) : fb.rightColumn.Satisfies options Q := by
  refine ⟨h.options, h.cells.mapIdx fun i cell hcell => ?_⟩
  split
  · exact hcell
  · split
    · exact hQ.copy_logicalAt h.cells _ _
    · exact hQ.blank _

theorem scrollLeft (h : fb.Satisfies options Q) : fb.scrollLeft.Satisfies options Q :=
  repeated_preserves (Satisfies · options Q) FrameBuffer.leftColumn (fun _ => hQ.leftColumn) _ fb h

theorem scrollRight (h : fb.Satisfies options Q) : fb.scrollRight.Satisfies options Q :=
  repeated_preserves (Satisfies · options Q) FrameBuffer.rightColumn (fun _ => hQ.rightColumn) _ fb h

end CellInvariant

end Schip.FrameBuffer
