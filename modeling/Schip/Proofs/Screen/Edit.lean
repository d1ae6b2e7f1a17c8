import Schip.Proofs.Screen.CellInvariant
import Schip.Proofs.Screen.SameOptions

/-!
# Sequences of operations on the frame buffer

Every operation on the frame buffer as data, with its arguments, and the effect of a sequence of
them. Arguments are natural numbers, as in the operations themselves; a call by machine words whose
index arithmetic stays within a word is the call by their values.

An operation keeps the size of the grid (`WellFormed.apply`), every invariant of cells
(`Satisfies.apply`) and, unless it chooses them, the options of the afterglow (`sameOptions_apply`).
`DrawnFrom` says that at most one of the operations that instructions make lies between two frame
buffers.
-/

set_option autoImplicit false

namespace Schip.FrameBuffer

/-- Operation on the frame buffer. -/
inductive Edit where
  | setPixel (row col : Nat) (bit : UInt8)
  | setAbsolute (index : Nat) (value : UInt8)
  | drawSprite (x y rowWidth : Nat) (pixels : List UInt8)
  | scrollDown (lines : Nat)
  | scrollLeft
  | scrollRight
  | updateDecay
  | clear
  | setMode (mode : Mode)
  | setReduceFlicker (on : Bool)
  | setDecayDelay (delay : UInt32)

/-- Whether an operation chooses an option of the afterglow. -/
def Edit.isChoice : Edit → Bool
  | .setReduceFlicker _ | .setDecayDelay _ => true
  | _ => false

/-- Whether an operation is one that instructions make. -/
def Edit.isDrawing : Edit → Bool
  | .drawSprite _ _ _ _ | .scrollDown _ | .scrollLeft | .scrollRight | .clear | .setMode _ => true
  | _ => false

/-- Frame buffer after one operation; whether a pixel collided is left out. -/
def apply (fb : FrameBuffer) : Edit → FrameBuffer
  | .setPixel row col bit => (fb.setPixel row col bit).2
  | .setAbsolute index value => fb.setAbsolute index value
  | .drawSprite x y rowWidth pixels => (fb.drawSprite x y rowWidth pixels).2
  | .scrollDown lines => fb.scrollDown lines
  | .scrollLeft => fb.scrollLeft
  | .scrollRight => fb.scrollRight
  | .updateDecay => fb.updateDecay
  | .clear => fb.clear
  | .setMode mode => fb.setMode mode
  | .setReduceFlicker on => fb.setReduceFlicker on
  | .setDecayDelay delay => fb.setDecayDelay delay

/-- Frame buffer after a sequence of operations. -/
def applyAll (fb : FrameBuffer) (edits : List Edit) : FrameBuffer := edits.foldl apply fb

variable {fb fb' : FrameBuffer}

/-- Every edit leaves a grid of the size of its mode. -/
theorem WellFormed.apply (h : fb.WellFormed) (edit : Edit) : (fb.apply edit).WellFormed := by
  cases edit with
  | setPixel row col bit => exact h.setPixel row col bit
  | setAbsolute index value => exact h.setAbsolute index value
  | drawSprite x y rowWidth pixels => exact h.drawSprite x y rowWidth pixels
  | scrollDown lines => exact h.scrollDown lines
  | scrollLeft => exact h.scrollLeft
  | scrollRight => exact h.scrollRight
  | updateDecay => exact h.updateDecay
  | clear => exact h.clear
  | setMode mode => exact wellFormed_setMode fb mode
  | setReduceFlicker on => exact h
  | setDecayDelay delay => exact h

theorem WellFormed.applyAll (h : fb.WellFormed) (edits : List Edit) :
    (fb.applyAll edits).WellFormed := by
  induction edits generalizing fb with
  | nil => exact h
  | cons edit rest ih => exact ih (h.apply edit)

/-- Only the choice of an option touches the options. -/
theorem sameOptions_apply (fb : FrameBuffer) {edit : Edit} (h : edit.isChoice = false) :
    (fb.apply edit).SameOptions fb := by
  cases edit with
  | setPixel row col bit => exact sameOptions_setPixel fb row col bit
  -- many pixels or many columns, one after the other
  | drawSprite x y rowWidth pixels => exact sameOptions_drawSprite fb x y rowWidth pixels
  | scrollLeft => exact sameOptions_repeated leftColumn (fun _ => ⟨rfl, rfl⟩) _ fb
  | scrollRight => exact sameOptions_repeated rightColumn (fun _ => ⟨rfl, rfl⟩) _ fb
  | setAbsolute | scrollDown | updateDecay | clear | setMode => exact ⟨rfl, rfl⟩
  | setReduceFlicker | setDecayDelay => cases h

theorem sameOptions_applyAll (fb : FrameBuffer) {edits : List Edit}
    (h : ∀ edit ∈ edits, edit.isChoice = false) : (fb.applyAll edits).SameOptions fb := by
  induction edits generalizing fb with
  | nil => exact SameOptions.refl fb
  | cons edit rest ih =>
      obtain ⟨hedit, hrest⟩ := List.forall_mem_cons.1 h
      exact (ih (fb.apply edit) hrest).trans (sameOptions_apply fb hedit)

/-- An operation keeps an invariant of cells, if a cell that it overwrites outright has the property
and the options that it chooses are as known. -/
theorem Satisfies.apply {options : Bool → UInt32 → Prop} {Q : Bool → Cell → Prop}
    (hQ : CellInvariant options Q) (h : fb.Satisfies options Q) (edit : Edit)
    (habsolute : ∀ index value, edit = .setAbsolute index value →
      ∀ visible, Q visible (Cell.absolute value))
    (hflicker : ∀ on, edit = .setReduceFlicker on → options on fb.decayDelay)
    (hdelay : ∀ delay, edit = .setDecayDelay delay → options fb.reduceFlicker (max delay 1)) :
    (fb.apply edit).Satisfies options Q := by
  cases edit with
  | setPixel row col bit => exact hQ.setPixel h row col bit
  | setAbsolute index value =>
      exact ⟨h.options, h.cells.setCell (habsolute index value rfl _)⟩
  | drawSprite x y rowWidth pixels => exact hQ.drawSprite h x y rowWidth pixels
  | scrollDown lines => exact hQ.scrollDown h lines
  | scrollLeft => exact hQ.scrollLeft h
  | scrollRight => exact hQ.scrollRight h
  | updateDecay => exact hQ.updateDecay h
  | clear => exact hQ.clear h
  | setMode mode => exact hQ.setMode mode h.options
  | setReduceFlicker on => exact ⟨hflicker on rfl, h.cells⟩
  | setDecayDelay delay => exact ⟨hdelay delay rfl, h.cells⟩

/-! ## What instructions do to the screen -/

/-- At most one operation that instructions make leads from one frame buffer to another. -/
def DrawnFrom (fb fb' : FrameBuffer) : Prop :=
  fb' = fb ∨ ∃ edit : Edit, edit.isDrawing = true ∧ fb' = fb.apply edit

theorem DrawnFrom.wellFormed (h : fb.DrawnFrom fb') (hfb : fb.WellFormed) : fb'.WellFormed := by
  rcases h with rfl | ⟨edit, -, rfl⟩
  · exact hfb
  · exact hfb.apply edit

theorem DrawnFrom.sameOptions (h : fb.DrawnFrom fb') : fb'.SameOptions fb := by
  rcases h with rfl | ⟨edit, hdrawing, rfl⟩
  · exact SameOptions.refl _
  · exact sameOptions_apply fb (by cases edit <;> first | rfl | cases hdrawing)

/-- Drawing keeps every cell invariant. -/
theorem DrawnFrom.satisfies {options : Bool → UInt32 → Prop} {Q : Bool → Cell → Prop}
    (hQ : CellInvariant options Q) (h : fb.DrawnFrom fb') (hfb : fb.Satisfies options Q) :
    fb'.Satisfies options Q := by
  rcases h with rfl | ⟨edit, hdrawing, rfl⟩
  · exact hfb
  · refine hfb.apply hQ edit ?_ ?_ ?_
    · rintro index value rfl
      cases hdrawing
    · rintro on rfl
      cases hdrawing
    · rintro delay rfl
      cases hdrawing

end Schip.FrameBuffer
