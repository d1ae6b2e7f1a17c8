import Schip.Plot
import Schip.Proofs.Screen.Edit
import Schip.Proofs.Screen.Place

/-!
# The hidden row never shows

The hidden row lies in the grid right behind the last visible one. Sprites that wrap pass through it
and scrolls down push pixels into it, but nothing comes back: two frame buffers that differ in the
hidden row alone go on to differ there alone, whatever is done to both of them
(`hidden_row_never_shows`). So they show the same picture; only the answer of a sprite, which may
collide with a hidden pixel, tells them apart.

`SameVisible` is the relation, with one lemma for each operation. An operation on a single cell
keeps it because a cell in the hidden row is no visible one; one that rewrites all cells at once
keeps it because each visible cell takes its pixel from a visible cell (`SameVisible.mapIdx`).
-/

set_option autoImplicit false

namespace Schip.FrameBuffer

/-- Same mode, same options and the same visible cells. The hidden rows may differ. -/
structure SameVisible (fb fb' : FrameBuffer) : Prop where
  mode : fb.mode = fb'.mode
  options : fb.SameOptions fb'
  cells : ∀ i, i < fb.mode.visibleCells → fb.cells[i]? = fb'.cells[i]?

variable {fb fb' fb'' : FrameBuffer} {row col index : Nat}

theorem SameVisible.refl (fb : FrameBuffer) : fb.SameVisible fb :=
  ⟨rfl, SameOptions.refl fb, fun _ _ => rfl⟩

theorem SameVisible.symm (h : fb.SameVisible fb') : fb'.SameVisible fb := by
  refine ⟨h.mode.symm, h.options.symm, ?_⟩
  intro i hi
  rw [← h.mode] at hi
  exact (h.cells i hi).symm

theorem SameVisible.trans (h : fb.SameVisible fb') (h' : fb'.SameVisible fb'') :
    fb.SameVisible fb'' := by
  refine ⟨h.mode.trans h'.mode, h.options.trans h'.options, ?_⟩
  intro i hi
  have hi' := hi
  rw [h.mode] at hi'
  exact (h.cells i hi).trans (h'.cells i hi')

theorem SameVisible.logicalAt (h : fb.SameVisible fb') {i : Nat} (hi : i < fb.mode.visibleCells) :
    fb.logicalAt i = fb'.logicalAt i := by
  simp only [FrameBuffer.logicalAt, h.cells i hi]

/-! ## One cell -/

/-- Whatever is put into a cell of the hidden row. -/
theorem sameVisible_setCell (hhidden : fb.mode.visibleCells ≤ index) (cell : Cell) :
    (fb.setCell index cell).SameVisible fb := by
  refine ⟨rfl, ⟨rfl, rfl⟩, ?_⟩
  intro i hi
  have hother : i ≠ index := Nat.ne_of_lt (Nat.lt_of_lt_of_le hi hhidden)
  rw [getElem?_setCell, if_neg hother]

/-- The same put into the same cell. -/
theorem SameVisible.setCell (h : fb.SameVisible fb') (index : Nat) (cell : Cell) :
    (fb.setCell index cell).SameVisible (fb'.setCell index cell) := by
  refine ⟨h.mode, ⟨h.options.reduceFlicker, h.options.decayDelay⟩, ?_⟩
  intro i hi
  rw [getElem?_setCell, getElem?_setCell, h.cells i hi]

/-- A pixel in the hidden row. -/
theorem sameVisible_setPixel (hhidden : fb.mode.visibleCells ≤ fb.mode.index row col)
    (bit : UInt8) : (fb.setPixel row col bit).2.SameVisible fb := by
  rcases setPixel_cases fb row col bit with ⟨-, heq⟩ | ⟨cell, -, -, heq⟩ | ⟨cell, -, -, heq⟩
  · rw [heq]
    exact SameVisible.refl fb
  · rw [heq]
    exact sameVisible_setCell hhidden _
  · rw [heq]
    exact sameVisible_setCell hhidden _

/-- A pixel in a visible row finds the same cell on both sides. -/
theorem SameVisible.setPixel_of_visible (h : fb.SameVisible fb')
    (hvisible : fb.mode.index row col < fb.mode.visibleCells) (bit : UInt8) :
    (fb.setPixel row col bit).2.SameVisible (fb'.setPixel row col bit).2 := by
  have hcell := h.cells _ hvisible
  have hhits : ∀ {cell}, fb.Hits row col bit cell → fb'.Hits row col bit cell := by
    intro cell hhit
    refine ⟨hhit.bit_ne_zero, h.mode ▸ hhit.col_lt, ?_⟩
    rw [← h.mode, ← hcell]
    exact hhit.cell_eq
  rcases setPixel_cases fb row col bit with
    ⟨hmiss, heq⟩ | ⟨cell, hhit, hlit, heq⟩ | ⟨cell, hhit, hlit, heq⟩
  · have hmiss' : fb'.Misses row col bit := by
      rw [Misses, ← h.mode, ← hcell]
      exact hmiss
    rw [heq, setPixel_of_misses hmiss']
    exact h
  · rw [heq, setPixel_of_lit (hhits hhit) hlit, ← h.mode, ← h.options.reduceFlicker,
      ← h.options.decayDelay]
    exact h.setCell _ _
  · rw [heq, setPixel_of_unlit (hhits hhit) hlit, ← h.mode]
    exact h.setCell _ _

/-- The same toggle keeps two screens the same but for the hidden row, wherever it falls. -/
theorem SameVisible.setPixel (h : fb.SameVisible fb') (row col : Nat) (bit : UInt8) :
    (fb.setPixel row col bit).2.SameVisible (fb'.setPixel row col bit).2 := by
  rcases Nat.lt_or_ge (fb.mode.index row col) fb.mode.visibleCells with hvisible | hhidden
  · exact h.setPixel_of_visible hvisible bit
  -- on each side the pixel changes nothing that is visible, perhaps in different ways
  · have hhidden' := hhidden
    rw [h.mode] at hhidden'
    exact (sameVisible_setPixel hhidden bit).trans
      (h.trans (sameVisible_setPixel hhidden' bit).symm)

theorem SameVisible.drawPlaced (h : fb.SameVisible fb') (pixels : List PlacedPixel) :
    (fb.drawPlaced pixels).2.SameVisible (fb'.drawPlaced pixels).2 := by
  induction pixels generalizing fb fb' with
  | nil => exact h
  | cons p rest ih => exact ih (h.setPixel p.row p.col p.bit)

/-- The same sprite keeps two screens the same but for the hidden row. -/
theorem SameVisible.drawSprite (h : fb.SameVisible fb') (x y rowWidth : Nat)
    (pixels : List UInt8) :
    (fb.drawSprite x y rowWidth pixels).2.SameVisible
      (fb'.drawSprite x y rowWidth pixels).2 := by
  rw [FrameBuffer.drawSprite, FrameBuffer.drawSprite]
  by_cases hwidth : rowWidth = 0
  · rw [if_pos hwidth, if_pos hwidth]
    exact h
  -- the same mode, hence the same places
  · rw [if_neg hwidth, if_neg hwidth, ← h.mode]
    exact h.drawPlaced _

/-! ## All cells at once -/

/-- Every cell rewritten, the visible ones alike. -/
theorem SameVisible.mapIdx (h : fb.SameVisible fb') {f f' : Nat → Cell → Cell}
    (hf : ∀ i cell, i < fb.mode.visibleCells → f i cell = f' i cell) :
    SameVisible { fb with cells := fb.cells.mapIdx f } { fb' with cells := fb'.cells.mapIdx f' } := by
  refine ⟨h.mode, ⟨h.options.reduceFlicker, h.options.decayDelay⟩, ?_⟩
  intro i hi
  simp only [Array.getElem?_mapIdx, h.cells i hi]
  apply Option.map_congr
  intro cell _
  exact hf i cell hi

/-- A function of single cells keeps two screens the same but for the hidden row. -/
theorem SameVisible.map (h : fb.SameVisible fb') (f : Cell → Cell) :
    SameVisible { fb with cells := fb.cells.map f } { fb' with cells := fb'.cells.map f } := by
  refine ⟨h.mode, ⟨h.options.reduceFlicker, h.options.decayDelay⟩, ?_⟩
  intro i hi
  simp only [Array.getElem?_map, h.cells i hi]

/-- A scroll down takes every pixel from above, on grids of the same size from the same place. -/
theorem SameVisible.scrollDown (h : fb.SameVisible fb') (hsize : fb.cells.size = fb'.cells.size)
    (lines : Nat) : (fb.scrollDown lines).SameVisible (fb'.scrollDown lines) := by
  apply h.mapIdx
  intro i cell hi
  have hshift : fb.downShift lines = fb'.downShift lines := by
    rw [downShift, downShift, h.mode, hsize]
  have habove : i - fb'.downShift lines < fb.mode.visibleCells :=
    Nat.lt_of_le_of_lt (Nat.sub_le _ _) hi
  rw [hshift, h.logicalAt habove]

/-- The right neighbour in the same row as a visible cell is visible. -/
theorem succ_lt_visibleCells {mode : Mode} {i : Nat} (hi : i < mode.visibleCells)
    (hnext : i % mode.width + 1 < mode.width) : i + 1 < mode.visibleCells := by
  have hplace : mode.index (i / mode.width) (i % mode.width) = i := Nat.div_add_mod' i _
  have hsucc : mode.index (i / mode.width) (i % mode.width + 1) = i + 1 := by
    rw [Mode.index, ← Nat.add_assoc, Nat.div_add_mod']
  have hrow : i / mode.width < mode.height := by
    rw [← index_lt_visibleCells (Nat.lt_of_succ_lt hnext), hplace]
    exact hi
  rw [← hsucc]
  exact (index_lt_visibleCells hnext).2 hrow

theorem SameVisible.leftColumn (h : fb.SameVisible fb') :
    fb.leftColumn.SameVisible fb'.leftColumn := by
  apply h.mapIdx
  intro i cell hi
  rw [← h.mode, if_neg (Nat.not_le.2 hi), if_neg (Nat.not_le.2 hi)]
  by_cases hnext : i % fb.mode.width + 1 < fb.mode.width
  · rw [if_pos hnext, if_pos hnext, h.logicalAt (succ_lt_visibleCells hi hnext)]
  -- the last column takes no pixel, least of all from the row below
  · rw [if_neg hnext, if_neg hnext]

theorem SameVisible.rightColumn (h : fb.SameVisible fb') :
    fb.rightColumn.SameVisible fb'.rightColumn := by
  apply h.mapIdx
  intro i cell hi
  have hprevious : i - 1 < fb.mode.visibleCells := Nat.lt_of_le_of_lt (Nat.sub_le _ _) hi
  rw [← h.mode, if_neg (Nat.not_le.2 hi), if_neg (Nat.not_le.2 hi), h.logicalAt hprevious]

theorem SameVisible.repeated {edit : FrameBuffer → FrameBuffer}
    (hedit : ∀ {fb fb' : FrameBuffer}, fb.SameVisible fb' → (edit fb).SameVisible (edit fb'))
    (n : Nat) (h : fb.SameVisible fb') :
    (FrameBuffer.repeated edit n fb).SameVisible (FrameBuffer.repeated edit n fb') := by
  induction n generalizing fb fb' with
  | zero => exact h
  | succ n ih => exact ih (hedit h)

/-! ## Sequences of operations -/

/-- One operation on both sides. -/
theorem SameVisible.apply (h : fb.SameVisible fb') (hwf : fb.WellFormed) (hwf' : fb'.WellFormed)
    (edit : Edit) : (fb.apply edit).SameVisible (fb'.apply edit) := by
  cases edit with
  | setPixel row col bit => exact h.setPixel row col bit
  | setAbsolute index value => exact h.setCell index (Cell.absolute value)
  | drawSprite x y rowWidth pixels => exact h.drawSprite x y rowWidth pixels
  | scrollDown lines =>
      have hsize : fb.cells.size = fb'.cells.size := by
        rw [hwf, hwf', h.mode]
      exact h.scrollDown hsize lines
  | scrollLeft => exact SameVisible.repeated SameVisible.leftColumn _ h
  | scrollRight => exact SameVisible.repeated SameVisible.rightColumn _ h
  | updateDecay => exact h.map Cell.age
  | clear => exact h.map fun _ => Cell.blank
  | setMode mode =>
      exact ⟨rfl, ⟨h.options.reduceFlicker, h.options.decayDelay⟩, fun _ _ => rfl⟩
  | setReduceFlicker on => exact ⟨h.mode, ⟨rfl, h.options.decayDelay⟩, h.cells⟩
  | setDecayDelay delay => exact ⟨h.mode, ⟨h.options.reduceFlicker, rfl⟩, h.cells⟩

/-- The same edits keep two screens the same but for the hidden row. -/
theorem SameVisible.applyAll (h : fb.SameVisible fb') (hwf : fb.WellFormed)
    (hwf' : fb'.WellFormed) (edits : List Edit) :
    (fb.applyAll edits).SameVisible (fb'.applyAll edits) := by
  induction edits generalizing fb fb' with
  | nil => exact h
  | cons edit rest ih => exact ih (h.apply hwf hwf' edit) (hwf.apply edit) (hwf'.apply edit)

/-! ## Pictures -/

theorem SameVisible.visible (h : fb.SameVisible fb') : fb.visible = fb'.visible := by
  apply Array.ext_getElem?
  intro i
  rw [getElem?_visible, getElem?_visible, ← h.mode]
  by_cases hi : i < fb.mode.visibleCells
  · rw [if_pos hi, if_pos hi, h.cells i hi]
  · rw [if_neg hi, if_neg hi]

/-- Screens that are the same but for the hidden row are plotted alike. -/
theorem SameVisible.plot (h : fb.SameVisible fb') : fb.plot = fb'.plot := by
  simp only [FrameBuffer.plot, pointsWhere, point, h.visible, h.mode]

/-- Two well-formed frame buffers that differ in the hidden row alone go on to do so through every
sequence of operations; what they show is the same. -/
theorem hidden_row_never_shows (hwf : fb.WellFormed) (hwf' : fb'.WellFormed)
    (h : fb.SameVisible fb') (edits : List Edit) :
    let reached := fb.applyAll edits
    let reached' := fb'.applyAll edits
    reached.WellFormed ∧ reached'.WellFormed ∧ reached.SameVisible reached' ∧
      reached.renderData = reached'.renderData ∧ reached.logicalData = reached'.logicalData ∧
      reached.decayTimers = reached'.decayTimers ∧ reached.plot = reached'.plot := by
  intro reached reached'
  have hreached : reached.SameVisible reached' := h.applyAll hwf hwf' edits
  have hvisible := hreached.visible
  refine ⟨hwf.applyAll edits, hwf'.applyAll edits, hreached, ?_, ?_, ?_, hreached.plot⟩
  · rw [renderData, renderData, hvisible]
  · rw [logicalData, logicalData, hvisible]
  · rw [decayTimers, decayTimers, hvisible]

/-- A sprite of a single pixel, which wraps. -/
theorem drawSprite_singleton (fb : FrameBuffer) (x y : Nat) (bit : UInt8) :
    fb.drawSprite x y 1 [bit] =
      fb.setPixel (y % (fb.mode.height + 1)) (x % fb.mode.width) bit := by
  simp [FrameBuffer.drawSprite, placeSprite, placePixel, FrameBuffer.drawPlaced]

/-- A pixel lit in the hidden row of one of two frame buffers. A sprite that runs off the bottom
collides with it on this side alone, and the picture is the same after it, a scroll down and a
scroll to the left. -/
theorem hidden_row_never_shows_collision :
    let fb := new
    let fb' := (new.setPixel 32 3 1).2
    let edits : List Edit := [.drawSprite 3 32 1 [1, 1], .scrollDown 1, .scrollLeft]
    fb.WellFormed ∧ fb'.WellFormed ∧ fb.SameVisible fb' ∧
      (fb.drawSprite 3 32 1 [1]).1 = false ∧ (fb'.drawSprite 3 32 1 [1]).1 = true ∧
      (fb.applyAll edits).SameVisible (fb'.applyAll edits) ∧
      (fb.applyAll edits).plot = (fb'.applyAll edits).plot := by
  intro fb fb' edits
  have hhidden : Mode.standard.Contains 32 3 := ⟨by decide, by decide⟩
  have hwf : fb.WellFormed := wellFormed_new
  have hwf' : fb'.WellFormed := wellFormed_new.setPixel 32 3 1
  have hbelow : new.mode.visibleCells ≤ new.mode.index 32 3 := by decide
  have hsame : fb.SameVisible fb' := (sameVisible_setPixel hbelow 1).symm
  have hdark : new.Hits 32 3 1 Cell.blank := ⟨by decide, by decide, getElem?_new hhidden⟩
  have hset : fb' = new.setCell (Mode.standard.index 32 3) (Cell.blank.light false) := by
    show (new.setPixel 32 3 1).2 = _
    rw [setPixel_of_unlit hdark (by decide)]
    rfl
  have hlit : fb'.Hits 32 3 1 (Cell.blank.light false) := by
    rw [hset]
    refine ⟨by decide, by decide, ?_⟩
    show (new.setCell (Mode.standard.index 32 3) (Cell.blank.light false)).cells[
      Mode.standard.index 32 3]? = _
    rw [getElem?_setCell, if_pos rfl, getElem?_new hhidden]
    rfl
  have hmode : fb'.mode = .standard := mode_setPixel new 32 3 1
  obtain ⟨-, -, hreached, -, -, -, hplot⟩ := hidden_row_never_shows hwf hwf' hsame edits
  refine ⟨hwf, hwf', hsame, ?_, ?_, hreached, hplot⟩
  · have hmisses := setPixel_of_unlit hdark (by decide)
    rw [drawSprite_singleton]
    exact congrArg Prod.fst hmisses
  · have hcollides := setPixel_of_lit hlit rfl
    rw [drawSprite_singleton, hmode]
    exact congrArg Prod.fst hcollides

end Schip.FrameBuffer
