import Schip.FrameBuffer.Scroll
import Schip.FrameBuffer.Sprite
import Schip.Proofs.Screen.Pixel

/-!
# Frame buffers with the same logical pixels

`SameLogical` relates two frame buffers that drawing cannot tell apart: they have the same mode and
the same logical pixel in every cell, the hidden row included. Rendered pixels, marks, countdowns
and both options of the afterglow may differ.

Every operation that draws keeps the relation and answers alike on both sides
(`SameLogical.setPixel`, `SameLogical.drawSprite`, `SameLogical.scrollDown`, ...). The operations
that only concern the display stay within the relation on one side alone
(`sameLogical_updateDecay`, `sameLogical_setReduceFlicker`, `sameLogical_setDecayDelay`).
-/

set_option autoImplicit false

namespace Schip.FrameBuffer

/-- Same mode and same logical pixels. -/
structure SameLogical (fb fb' : FrameBuffer) : Prop where
  mode : fb.mode = fb'.mode
  logical : fb.cells.map Cell.logical = fb'.cells.map Cell.logical

variable {fb fb' fb'' : FrameBuffer}

theorem SameLogical.refl (fb : FrameBuffer) : fb.SameLogical fb := ⟨rfl, rfl⟩

theorem SameLogical.symm (h : fb.SameLogical fb') : fb'.SameLogical fb :=
  ⟨h.mode.symm, h.logical.symm⟩

theorem SameLogical.trans (h : fb.SameLogical fb') (h' : fb'.SameLogical fb'') :
    fb.SameLogical fb'' :=
  ⟨h.mode.trans h'.mode, h.logical.trans h'.logical⟩

theorem SameLogical.size (h : fb.SameLogical fb') : fb.cells.size = fb'.cells.size := by
  have := congrArg Array.size h.logical
  simpa using this

/-- The relation read cell by cell, also past the end of the grid. -/
theorem SameLogical.getElem? (h : fb.SameLogical fb') (i : Nat) :
    fb.cells[i]?.map Cell.logical = fb'.cells[i]?.map Cell.logical := by
  rw [← Array.getElem?_map, ← Array.getElem?_map, h.logical]

theorem sameLogical_of_getElem? (hmode : fb.mode = fb'.mode)
    (h : ∀ i : Nat, fb.cells[i]?.map Cell.logical = fb'.cells[i]?.map Cell.logical) :
    fb.SameLogical fb' := by
  refine ⟨hmode, Array.ext_getElem? fun i => ?_⟩
  rw [Array.getElem?_map, Array.getElem?_map]
  exact h i

theorem SameLogical.logicalAt (h : fb.SameLogical fb') (i : Nat) :
    fb.logicalAt i = fb'.logicalAt i := by
  simp only [FrameBuffer.logicalAt, h.getElem? i]

/-! ## Operations that draw -/

theorem SameLogical.setMode (mode : Mode) : (fb.setMode mode).SameLogical (fb'.setMode mode) :=
  ⟨rfl, rfl⟩

theorem SameLogical.clear (h : fb.SameLogical fb') : fb.clear.SameLogical fb'.clear := by
  refine ⟨h.mode, ?_⟩
  -- the new logical pixel is the same for every old one
  have hblank : Cell.logical ∘ (fun _ => Cell.blank) =
      (fun _ => Cell.blank.logical) ∘ Cell.logical := rfl
  rw [FrameBuffer.clear, FrameBuffer.clear, Array.map_map, Array.map_map, hblank,
    ← Array.map_map, ← Array.map_map, h.logical]

theorem SameLogical.setCell (h : fb.SameLogical fb') (index : Nat) {cell cell' : Cell}
    (hcell : cell.logical = cell'.logical) :
    (fb.setCell index cell).SameLogical (fb'.setCell index cell') := by
  refine ⟨h.mode, ?_⟩
  simp only [FrameBuffer.setCell, Array.map_setIfInBounds, h.logical, hcell]

/-- A toggle that misses one of two screens with the same pixels misses the other. -/
theorem SameLogical.misses (h : fb.SameLogical fb') {row col : Nat} {bit : UInt8}
    (hmiss : fb.Misses row col bit) : fb'.Misses row col bit := by
  have hcell := h.getElem? (fb.mode.index row col)
  rw [Misses, ← h.mode]
  rcases hmiss with hbit | hcol | hnone
  · exact Or.inl hbit
  · exact Or.inr (Or.inl hcol)
  -- the grids have the same size, so the index is past the end of both
  · rw [hnone] at hcell
    exact Or.inr (Or.inr (Option.map_eq_none_iff.1 hcell.symm))

/-- A toggle that hits a cell of one of two screens with the same pixels hits one with the same
pixel of the other. -/
theorem SameLogical.hits (h : fb.SameLogical fb') {row col : Nat} {bit : UInt8} {cell : Cell}
    (hhit : fb.Hits row col bit cell) :
    ∃ cell', fb'.Hits row col bit cell' ∧ cell'.logical = cell.logical := by
  have hcell := h.getElem? (fb.mode.index row col)
  rw [hhit.cell_eq] at hcell
  obtain ⟨cell', hc', hsame⟩ := Option.map_eq_some_iff.1 hcell.symm
  exact ⟨cell', ⟨hhit.bit_ne_zero, h.mode ▸ hhit.col_lt, h.mode ▸ hc'⟩, hsame⟩

/-- Exclusive-or of a pixel: the same collision, and again the same logical pixels. -/
theorem SameLogical.setPixel (h : fb.SameLogical fb') (row col : Nat) (bit : UInt8) :
    (fb.setPixel row col bit).1 = (fb'.setPixel row col bit).1 ∧
      (fb.setPixel row col bit).2.SameLogical (fb'.setPixel row col bit).2 := by
  rcases setPixel_cases fb row col bit with
    ⟨hmiss, heq⟩ | ⟨cell, hhit, hlit, heq⟩ | ⟨cell, hhit, hlit, heq⟩
  -- nothing is addressed on either side
  · rw [heq, setPixel_of_misses (h.misses hmiss)]
    exact ⟨rfl, h⟩
  -- a lit cell on both sides is switched off, with or without afterglow
  · obtain ⟨cell', hhit', hsame⟩ := h.hits hhit
    rw [heq, setPixel_of_lit hhit' (hsame.trans hlit), ← h.mode]
    exact ⟨rfl, h.setCell _ rfl⟩
  -- any other cell is switched on
  · obtain ⟨cell', hhit', hsame⟩ := h.hits hhit
    rw [heq, setPixel_of_unlit hhit' (fun h1 => hlit (hsame.symm.trans h1)), ← h.mode]
    exact ⟨rfl, h.setCell _ rfl⟩

/-- Drawing on screens with the same pixels has the same collisions and leaves the same pixels. -/
theorem SameLogical.drawPlaced (h : fb.SameLogical fb') (pixels : List PlacedPixel) :
    (fb.drawPlaced pixels).1 = (fb'.drawPlaced pixels).1 ∧
      (fb.drawPlaced pixels).2.SameLogical (fb'.drawPlaced pixels).2 := by
  induction pixels generalizing fb fb' with
  | nil => exact ⟨rfl, h⟩
  | cons p rest ih =>
      obtain ⟨hhit, hnext⟩ := h.setPixel p.row p.col p.bit
      obtain ⟨hrest, hend⟩ := ih hnext
      refine ⟨?_, hend⟩
      simp only [FrameBuffer.drawPlaced, hhit, hrest]

/-- A sprite: the same collision, and again the same logical pixels. -/
theorem SameLogical.drawSprite (h : fb.SameLogical fb') (x y rowWidth : Nat)
    (pixels : List UInt8) :
    (fb.drawSprite x y rowWidth pixels).1 = (fb'.drawSprite x y rowWidth pixels).1 ∧
      (fb.drawSprite x y rowWidth pixels).2.SameLogical
        (fb'.drawSprite x y rowWidth pixels).2 := by
  rw [FrameBuffer.drawSprite, FrameBuffer.drawSprite]
  by_cases hwidth : rowWidth = 0
  · rw [if_pos hwidth, if_pos hwidth]
    exact ⟨rfl, h⟩
  · rw [if_neg hwidth, if_neg hwidth, h.mode]
    exact h.drawPlaced _

/-- Every cell rewritten at once, such that the new logical pixel of a cell depends on its index
and on its old logical pixel only. -/
theorem SameLogical.mapIdx (h : fb.SameLogical fb') {f f' : Nat → Cell → Cell}
    (hf : ∀ i cell cell', cell.logical = cell'.logical →
      (f i cell).logical = (f' i cell').logical) :
    SameLogical { fb with cells := fb.cells.mapIdx f } { fb' with cells := fb'.cells.mapIdx f' } := by
  refine sameLogical_of_getElem? h.mode fun i => ?_
  have hi := h.getElem? i
  simp only [Array.getElem?_mapIdx, Option.map_map]
  cases hc : fb.cells[i]? with
  | none =>
      rw [hc] at hi
      have hc' : fb'.cells[i]? = none := by simpa using hi.symm
      rw [hc']
      rfl
  | some cell =>
      rw [hc] at hi
      obtain ⟨cell', hc', hsame⟩ := Option.map_eq_some_iff.1 hi.symm
      rw [hc']
      exact congrArg some (hf i cell cell' hsame.symm)

theorem SameLogical.scrollDown (h : fb.SameLogical fb') (lines : Nat) :
    (fb.scrollDown lines).SameLogical (fb'.scrollDown lines) := by
  apply h.mapIdx
  intro i cell cell' _
  rw [downShift, downShift, h.mode, h.size, h.logicalAt]

theorem SameLogical.leftColumn (h : fb.SameLogical fb') :
    fb.leftColumn.SameLogical fb'.leftColumn := by
  apply h.mapIdx
  intro i cell cell' hcell
  rw [h.mode, h.logicalAt]
  split
  -- the hidden row stays as it is
  · exact hcell
  · rfl

theorem SameLogical.rightColumn (h : fb.SameLogical fb') :
    fb.rightColumn.SameLogical fb'.rightColumn := by
  apply h.mapIdx
  intro i cell cell' hcell
  rw [h.mode, h.logicalAt]
  split
  · exact hcell
  · rfl

theorem SameLogical.repeated {edit : FrameBuffer → FrameBuffer}
    (hedit : ∀ {fb fb' : FrameBuffer}, fb.SameLogical fb' → (edit fb).SameLogical (edit fb'))
    (n : Nat) (h : fb.SameLogical fb') :
    (FrameBuffer.repeated edit n fb).SameLogical (FrameBuffer.repeated edit n fb') := by
  induction n generalizing fb fb' with
  | zero => exact h
  | succ n ih => exact ih (hedit h)

theorem SameLogical.scrollLeft (h : fb.SameLogical fb') :
    fb.scrollLeft.SameLogical fb'.scrollLeft :=
  SameLogical.repeated SameLogical.leftColumn _ h

theorem SameLogical.scrollRight (h : fb.SameLogical fb') :
    fb.scrollRight.SameLogical fb'.scrollRight :=
  SameLogical.repeated SameLogical.rightColumn _ h

/-! ## Operations that only concern the display -/

/-- An update does not touch the logical pixels. -/
theorem sameLogical_updateDecay (fb : FrameBuffer) : fb.SameLogical fb.updateDecay := by
  refine ⟨rfl, ?_⟩
  have hage : Cell.logical ∘ Cell.age = Cell.logical := funext Cell.logical_age
  rw [updateDecay, Array.map_map, hage]

theorem sameLogical_setReduceFlicker (fb : FrameBuffer) (on : Bool) :
    fb.SameLogical (fb.setReduceFlicker on) :=
  ⟨rfl, rfl⟩

theorem sameLogical_setDecayDelay (fb : FrameBuffer) (delay : UInt32) :
    fb.SameLogical (fb.setDecayDelay delay) :=
  ⟨rfl, rfl⟩

end Schip.FrameBuffer
