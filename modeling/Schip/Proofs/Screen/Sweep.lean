import Schip.FrameBuffer.Scroll
import Schip.Proofs.Screen.Pixel

/-!
# Sweeps over the grid

A scroll and an update of the afterglow are defined as one rewriting of all cells at once.
`swept` is the grid in the middle of such a rewriting, when the cells at some indices are done and
the others are as before; `setCell_swept` says that doing one more cell leads to the next grid, in
whatever order the cells are taken.
-/

set_option autoImplicit false

namespace Schip.FrameBuffer

/-- Grid with the cells at the indices that are done rewritten. -/
def swept (fb : FrameBuffer) (f : Nat → Cell → Cell) (done : Nat → Bool) : FrameBuffer :=
  { fb with cells := fb.cells.mapIdx fun i cell => if done i then f i cell else cell }

variable {fb : FrameBuffer} {f : Nat → Cell → Cell} {done : Nat → Bool}

theorem getElem?_swept (fb : FrameBuffer) (f : Nat → Cell → Cell) (done : Nat → Bool) (i : Nat) :
    (fb.swept f done).cells[i]? =
      fb.cells[i]?.map fun cell => if done i then f i cell else cell := by
  simp only [swept, Array.getElem?_mapIdx]

theorem getElem?_swept_of_not_done {i : Nat} (h : done i = false) :
    (fb.swept f done).cells[i]? = fb.cells[i]? := by
  rw [getElem?_swept]
  simp [h]

/-- A screen is given by its mode, its options and its cells. -/
theorem ext_cells {fb' : FrameBuffer} (hmode : fb.mode = fb'.mode)
    (hflicker : fb.reduceFlicker = fb'.reduceFlicker) (hdelay : fb.decayDelay = fb'.decayDelay)
    (hcells : ∀ i : Nat, fb.cells[i]? = fb'.cells[i]?) : fb = fb' := by
  have hall : fb.cells = fb'.cells := Array.ext_getElem? fun i => hcells i
  cases fb
  cases fb'
  simp_all

/-- A sweep is given by the cells of the grid that it is done with. -/
theorem swept_congr {done' : Nat → Bool} (h : ∀ i, i < fb.cells.size → done i = done' i) :
    fb.swept f done = fb.swept f done' := by
  refine ext_cells rfl rfl rfl fun i => ?_
  rw [getElem?_swept, getElem?_swept]
  apply Option.map_congr
  intro cell hcell
  rw [h i (Array.getElem?_eq_some_iff.1 hcell).1]

/-- Nothing is done yet. -/
theorem swept_none (h : ∀ i, i < fb.cells.size → done i = false) : fb.swept f done = fb := by
  refine ext_cells rfl rfl rfl fun i => ?_
  rcases Nat.lt_or_ge i fb.cells.size with hi | hi
  · exact getElem?_swept_of_not_done (h i hi)
  -- past the end there is no cell on either side
  · rw [getElem?_swept, Array.getElem?_eq_none hi]
    rfl

/-- Everything is done that the rewriting changes at all. -/
theorem swept_all (h : ∀ i cell, i < fb.cells.size → done i = false → f i cell = cell) :
    fb.swept f done = { fb with cells := fb.cells.mapIdx f } := by
  refine ext_cells rfl rfl rfl fun i => ?_
  rw [getElem?_swept, Array.getElem?_mapIdx]
  rcases Nat.lt_or_ge i fb.cells.size with hi | hi
  · apply Option.map_congr
    intro cell _
    cases hdone : done i with
    | true => rfl
    | false => exact (h i cell hi hdone).symm
  · rw [Array.getElem?_eq_none hi]
    rfl

/-- Of two conditions on an index that differ in a single one. -/
theorem decide_eq_or_beq {p q : Prop} [Decidable p] [Decidable q] {i index : Nat}
    (h : p ↔ q ∨ i = index) : decide p = (decide q || i == index) := by
  rw [Bool.eq_iff_iff, Bool.or_eq_true, decide_eq_true_iff, decide_eq_true_iff, beq_iff_eq]
  exact h

/-- One more cell is done. -/
theorem setCell_swept {done' : Nat → Bool} {index : Nat} {new : Cell}
    (hnew : ∀ cell, fb.cells[index]? = some cell → new = f index cell)
    (hdone : ∀ i, i < fb.cells.size → done' i = (done i || i == index)) :
    (fb.swept f done).setCell index new = fb.swept f done' := by
  refine ext_cells rfl rfl rfl fun i => ?_
  rw [getElem?_setCell, getElem?_swept, getElem?_swept]
  cases hcell : fb.cells[i]? with
  | none => exact ite_self none
  | some cell =>
      have hi : i < fb.cells.size := (Array.getElem?_eq_some_iff.1 hcell).1
      by_cases heq : i = index
      -- the cell that is done now; it may have been done before
      · subst heq
        rw [if_pos rfl]
        simp [hdone i hi, hnew cell hcell]
      -- every other cell is as far as it was
      · rw [if_neg heq]
        simp [hdone i hi, heq]

theorem repeated_succ (edit : FrameBuffer → FrameBuffer) (n : Nat) (fb : FrameBuffer) :
    repeated edit (n + 1) fb = edit (repeated edit n fb) := by
  induction n generalizing fb with
  | zero => rfl
  | succ n ih => exact ih (edit fb)

end Schip.FrameBuffer
