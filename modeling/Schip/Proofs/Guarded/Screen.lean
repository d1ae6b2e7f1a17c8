import Schip.Proofs.Guarded.Arithmetic
import Schip.Proofs.Screen.Sweep

/-!
# Guarded screen

The grid as four arrays beside each other, changed in place by loops over machine words, with every
step guarded that can abort. Widths, heights and sizes are data here, and nothing but the code
relates them.

`Screen.of` lays a frame buffer out in this form. Each operation, run on a grid of the size that its
mode asks for, does not abort and leaves the layout of what the operation on the frame buffer leaves
(`setPixel?_of`, `drawSprite?_of`, `updateDecay?_of`, ...).
-/

set_option autoImplicit false

namespace Schip.Guarded

open FrameBuffer (wordLimit)

/-- Screen laid out in four arrays. -/
structure Screen where
  width : Nat
  height : Nat
  scale : Nat
  extended : Bool
  data : Array UInt8
  render : Array UInt8
  pending : Array Bool
  timers : Array (Option UInt32)
  reduceFlicker : Bool
  decayDelay : UInt32

namespace Screen

/-- Fresh arrays for a picture of the given size with one more row. -/
def init? (s : Screen) (width height : Nat) : Option Screen := do
  let rows ← word? (height + 1)
  let cells ← word? (width * rows)
  let pixels ← word? (64 * 12)
  let scale ← div? pixels width
  return { s with
    width := width, height := height, scale := scale
    data := Array.replicate cells 0, render := Array.replicate cells 0
    pending := Array.replicate cells false, timers := Array.replicate cells none }

/-- Switch to a mode. -/
def setExtended? (s : Screen) (extended : Bool) : Option Screen :=
  if extended then { s with extended := true }.init? 128 64
  else { s with extended := false }.init? 64 32

/-- Blank screen; filling an array cannot abort. -/
def clear (s : Screen) : Screen :=
  { s with
    data := s.data.map fun _ => 0, render := s.render.map fun _ => 0
    pending := s.pending.map fun _ => false, timers := s.timers.map fun _ => none }

/-- One cell overwritten outright; an index outside the grid changes nothing. -/
def setAbsolute? (s : Screen) (index : Nat) (value : UInt8) : Option Screen :=
  if index < s.data.size then do
    let data ← write? s.data index value
    let render ← write? s.render index value
    let pending ← write? s.pending index false
    let timers ← write? s.timers index none
    return { s with data := data, render := render, pending := pending, timers := timers }
  else
    some s

/-- Lit pixel switched off. -/
def extinguish? (s : Screen) (index : Nat) : Option Screen := do
  let data ← write? s.data index 0
  let pending ← write? s.pending index true
  let timers ← write? s.timers index (some s.decayDelay)
  let render ← if s.reduceFlicker then some s.render else write? s.render index 0
  return { s with data := data, render := render, pending := pending, timers := timers }

/-- Any other pixel switched on. -/
def light? (s : Screen) (index : Nat) (visible : Bool) : Option Screen := do
  let data ← write? s.data index 1
  let pending ← write? s.pending index false
  let render ← if visible then write? s.render index 1 else some s.render
  let timers ← write? s.timers index none
  return { s with data := data, render := render, pending := pending, timers := timers }

/-- Exclusive-or of one pixel, and whether a lit pixel was switched off. -/
def setPixel? (s : Screen) (row col : Nat) (bit : UInt8) : Option (Bool × Screen) :=
  if bit = 0 ∨ s.width ≤ col then
    some (false, s)
  else do
    let start ← word? (row * s.width)
    let index ← word? (start + col)
    if s.data.size ≤ index then
      return (false, s)
    else
      let pixel ← s.data[index]?
      if pixel = 1 then
        return (true, ← s.extinguish? index)
      else
        return (false, ← s.light? index (row < s.height))

/-- Pixels of a sprite drawn from number `i` on, and whether there was a collision. -/
def drawPixels? (s : Screen) (x y rowWidth i : Nat) (collision : Bool) :
    List UInt8 → Option (Bool × Screen)
  | [] => some (collision, s)
  | bit :: rest => do
    let right ← word? (x + (← mod? i rowWidth))
    let col ← mod? right s.width
    let down ← word? (y + (← div? i rowWidth))
    let row ← mod? down (← word? (s.height + 1))
    let (hit, s') ← s.setPixel? row col bit
    drawPixels? s' x y rowWidth (i + 1) (collision || hit) rest

/-- Sprite drawn at (`x`, `y`), and whether it collided. -/
def drawSprite? (s : Screen) (x y rowWidth : Nat) (pixels : List UInt8) :
    Option (Bool × Screen) :=
  if rowWidth = 0 then some (false, s) else s.drawPixels? x y rowWidth 0 false pixels

/-- Countdown less one; zero stays zero. -/
def shorten (t : UInt32) : UInt32 := if t = 0 then 0 else t - 1

/-- Afterglow of one cell one update on. -/
def age? (i : Nat) (s : Screen) : Option Screen := do
  let pending ← s.pending[i]?
  if pending then
    match ← s.timers[i]? with
    | none => return s
    | some t =>
      if shorten t = 0 then
        let pending ← write? s.pending i false
        let render ← write? s.render i 0
        let timers ← write? s.timers i none
        return { s with render := render, pending := pending, timers := timers }
      else
        return { s with timers := ← write? s.timers i (some (shorten t)) }
  else
    return s

/-- Afterglow one update on, cell by cell. -/
def updateDecay? (s : Screen) : Option Screen := ascending? age? s.timers.size s

/-- Layout of a frame buffer. -/
def of (fb : FrameBuffer) : Screen where
  width := fb.mode.width
  height := fb.mode.height
  scale := fb.mode.scale
  extended := fb.mode == .extended
  data := fb.cells.map Cell.logical
  render := fb.cells.map Cell.render
  pending := fb.cells.map Cell.pending
  timers := fb.cells.map Cell.timer
  reduceFlicker := fb.reduceFlicker
  decayDelay := fb.decayDelay

variable {fb : FrameBuffer} {index : Nat} {cell : Cell}

/-! ## Arrays of the layout -/

theorem size_data_of (fb : FrameBuffer) : (of fb).data.size = fb.cells.size := Array.size_map

theorem size_timers_of (fb : FrameBuffer) : (of fb).timers.size = fb.cells.size := Array.size_map

theorem getElem?_data_of (fb : FrameBuffer) (i : Nat) :
    (of fb).data[i]? = fb.cells[i]?.map Cell.logical := Array.getElem?_map

/-- A cell that is set is set in each of the four arrays. -/
theorem of_setCell (fb : FrameBuffer) (index : Nat) (new : Cell) :
    of (fb.setCell index new) =
      { of fb with
        data := (of fb).data.setIfInBounds index new.logical
        render := (of fb).render.setIfInBounds index new.render
        pending := (of fb).pending.setIfInBounds index new.pending
        timers := (of fb).timers.setIfInBounds index new.timer } := by
  simp only [of, FrameBuffer.setCell, Array.map_setIfInBounds]

/-- To write to an array what it has there changes nothing. -/
theorem map_setIfInBounds_self {α : Type} (f : Cell → α) (hcell : fb.cells[index]? = some cell) :
    (fb.cells.map f).setIfInBounds index (f cell) = fb.cells.map f := by
  rw [← Array.map_setIfInBounds]
  exact congrArg (fun same => same.cells.map f) (FrameBuffer.setCell_self hcell)

/-- A write at an index of the grid does not abort, in any of the arrays. -/
theorem write?_map_cells {α : Type} (f : Cell → α) (hindex : index < fb.cells.size) (value : α) :
    write? (fb.cells.map f) index value = some ((fb.cells.map f).setIfInBounds index value) :=
  write?_eq (by rw [Array.size_map]; exact hindex) value

theorem width_pos (mode : Mode) : 0 < mode.width := by cases mode <;> decide

/-! ## Operations that do not loop -/

/-- Fresh arrays can be made for both modes. -/
theorem init?_of (s : Screen) (mode : Mode) :
    s.init? mode.width mode.height =
      some { s with
        width := mode.width, height := mode.height, scale := mode.scale
        data := Array.replicate mode.totalCells 0, render := Array.replicate mode.totalCells 0
        pending := Array.replicate mode.totalCells false
        timers := Array.replicate mode.totalCells none } := by
  cases mode <;> rfl

/-- A switch of the mode cannot abort. -/
theorem setExtended?_of (fb : FrameBuffer) (mode : Mode) :
    (of fb).setExtended? (mode == .extended) = some (of (fb.setMode mode)) := by
  have hblank : of (fb.setMode mode) =
      { of fb with
        width := mode.width, height := mode.height, scale := mode.scale
        extended := mode == .extended
        data := Array.replicate mode.totalCells 0, render := Array.replicate mode.totalCells 0
        pending := Array.replicate mode.totalCells false
        timers := Array.replicate mode.totalCells none } := by
    simp only [of, FrameBuffer.setMode, FrameBuffer.blankCells, Array.map_replicate]
    rfl
  rw [hblank]
  cases mode with
  | standard => exact init?_of { of fb with extended := false } .standard
  | extended => exact init?_of { of fb with extended := true } .extended

theorem clear_of (fb : FrameBuffer) : (of fb).clear = of fb.clear := by
  simp only [clear, of, FrameBuffer.clear, Array.map_map]
  rfl

/-- Overwriting a cell cannot abort, whatever the index. -/
theorem setAbsolute?_of (fb : FrameBuffer) (index : Nat) (value : UInt8) :
    (of fb).setAbsolute? index value = some (of (fb.setAbsolute index value)) := by
  rw [setAbsolute?, size_data_of]
  by_cases hindex : index < fb.cells.size
  · rw [if_pos hindex, FrameBuffer.setAbsolute_eq_setCell, of_setCell]
    simp only [of, write?_map_cells _ hindex]
    rfl
  · rw [if_neg hindex]
    have hsame : fb.cells.setIfInBounds index (Cell.absolute value) = fb.cells := by
      simp [Array.setIfInBounds, hindex]
    simp only [FrameBuffer.setAbsolute, hsame]

/-- A cell of the grid can be switched off. -/
theorem extinguish?_of (hcell : fb.cells[index]? = some cell) :
    (of fb).extinguish? index =
      some (of (fb.setCell index (cell.extinguish fb.reduceFlicker fb.decayDelay))) := by
  have hindex : index < fb.cells.size := (Array.getElem?_eq_some_iff.1 hcell).1
  rw [of_setCell]
  simp only [extinguish?, of, write?_map_cells _ hindex]
  cases fb.reduceFlicker with
  | true =>
      -- the rendered pixel is left alone, which is a write of what is there
      simp only [Cell.extinguish, if_true, map_setIfInBounds_self Cell.render hcell]
      rfl
  | false => rfl

/-- A cell of the grid can be switched on. -/
theorem light?_of (hcell : fb.cells[index]? = some cell) (visible : Bool) :
    (of fb).light? index visible = some (of (fb.setCell index (cell.light visible))) := by
  have hindex : index < fb.cells.size := (Array.getElem?_eq_some_iff.1 hcell).1
  rw [of_setCell]
  simp only [light?, of, write?_map_cells _ hindex]
  cases visible with
  | true => rfl
  | false =>
      -- likewise in the hidden row
      simp only [Cell.light, Bool.false_eq_true, if_false,
        map_setIfInBounds_self Cell.render hcell]
      rfl

/-- A pixel on the grid switches its cell on or off, and its index is a word. -/
theorem setPixel?_of_hits {row col : Nat} {bit : UInt8} (hhit : fb.Hits row col bit cell)
    (hfits : fb.mode.index row col < wordLimit) :
    (of fb).setPixel? row col bit =
      if cell.logical = 1 then ((of fb).extinguish? (fb.mode.index row col)).map (true, ·)
      else ((of fb).light? (fb.mode.index row col) (row < fb.mode.height)).map (false, ·) := by
  have hin : ¬(bit = 0 ∨ (of fb).width ≤ col) := by
    rintro (hbit | hcol)
    · exact hhit.bit_ne_zero hbit
    · exact Nat.not_le.2 hhit.col_lt hcol
  have hstart : word? (row * (of fb).width) = some (row * fb.mode.width) :=
    word?_eq (Nat.lt_of_le_of_lt (Nat.le_add_right _ col) hfits)
  have hindex : word? (row * fb.mode.width + col) = some (fb.mode.index row col) := word?_eq hfits
  have hnot : ¬(of fb).data.size ≤ fb.mode.index row col := by
    rw [size_data_of]
    exact Nat.not_le.2 (Array.getElem?_eq_some_iff.1 hhit.cell_eq).1
  have hpixel : (of fb).data[fb.mode.index row col]? = some cell.logical := by
    rw [getElem?_data_of, hhit.cell_eq]
    rfl
  rw [setPixel?, if_neg hin]
  simp only [hstart, hindex, hpixel, Option.bind_eq_bind, Option.bind_some, if_neg hnot]
  by_cases hlit : cell.logical = 1
  · rw [if_pos hlit, if_pos hlit]
    exact Option.map_eq_bind.symm
  · rw [if_neg hlit, if_neg hlit]
    exact Option.map_eq_bind.symm

/-- Exclusive-or of a pixel whose index is a machine word. -/
theorem setPixel?_of (fb : FrameBuffer) {row col : Nat} (bit : UInt8)
    (hfits : fb.mode.index row col < wordLimit) :
    (of fb).setPixel? row col bit =
      some ((fb.setPixel row col bit).1, of (fb.setPixel row col bit).2) := by
  rcases FrameBuffer.setPixel_cases fb row col bit with
    ⟨hbit | hcol | hnone, heq⟩ | ⟨cell, hhit, hlit, heq⟩ | ⟨cell, hhit, hlit, heq⟩
  · rw [heq, setPixel?, if_pos (Or.inl hbit)]
  -- a column outside the grid is noticed before an index is computed
  · have hcol' : (of fb).width ≤ col := hcol
    rw [heq, setPixel?, if_pos (Or.inr hcol')]
  -- a row outside the grid only by the index, which has to be a word
  · have hstart : word? (row * (of fb).width) = some (row * fb.mode.width) :=
      word?_eq (Nat.lt_of_le_of_lt (Nat.le_add_right _ col) hfits)
    have hindex : word? (row * fb.mode.width + col) = some (fb.mode.index row col) :=
      word?_eq hfits
    have hpast : (of fb).data.size ≤ fb.mode.index row col := by
      rw [size_data_of]
      exact Array.getElem?_eq_none_iff.1 hnone
    rw [heq, setPixel?]
    simp only [hstart, hindex, Option.bind_eq_bind, Option.bind_some, if_pos hpast]
    exact ite_self _
  -- a cell of the grid, lit or not
  · rw [heq, setPixel?_of_hits hhit hfits, if_pos hlit, extinguish?_of hhit.cell_eq]
    rfl
  · rw [heq, setPixel?_of_hits hhit hfits, if_neg hlit, light?_of hhit.cell_eq]
    rfl

/-- The indices of a grid are words. -/
theorem index_lt_wordLimit (mode : Mode) {row col : Nat} (hrow : row < mode.height + 1)
    (hcol : col < mode.width) : mode.index row col < wordLimit := by
  have hle : row * mode.width ≤ mode.height * mode.width :=
    Nat.mul_le_mul_right _ (Nat.le_of_lt_succ hrow)
  have hgrid : mode.height * mode.width + mode.width < wordLimit := by cases mode <;> decide
  rw [Mode.index]
  omega

theorem height_lt_wordLimit (mode : Mode) : mode.height + 1 < wordLimit := by
  cases mode <;> decide

/-- The rest of a sprite, from pixel number `i` on. -/
theorem drawPixels?_of (fb : FrameBuffer) {x y rowWidth : Nat} (hwidth : 0 < rowWidth)
    (i : Nat) (collision : Bool) (pixels : List UInt8)
    (hfits : FrameBuffer.SpriteFits x y rowWidth (i + pixels.length)) :
    (of fb).drawPixels? x y rowWidth i collision pixels =
      some (collision || (fb.drawPlaced (pixels.mapIdx fun j bit =>
          FrameBuffer.placePixel fb.mode x y rowWidth bit (i + j))).1,
        of (fb.drawPlaced (pixels.mapIdx fun j bit =>
          FrameBuffer.placePixel fb.mode x y rowWidth bit (i + j))).2) := by
  induction pixels generalizing fb i collision with
  | nil =>
      rw [drawPixels?, List.mapIdx_nil, FrameBuffer.drawPlaced, Bool.or_false]
  | cons bit rest ih =>
      have hlength : i + 1 + rest.length = i + (bit :: rest).length := by
        rw [List.length_cons]
        omega
      -- both places are words before they wrap, and are places of the grid afterwards
      obtain ⟨hx, hy⟩ := hfits i (by rw [List.length_cons]; omega)
      have hright : word? (x + i % rowWidth) = some (x + i % rowWidth) := word?_eq hx
      have hdown : word? (y + i / rowWidth) = some (y + i / rowWidth) := word?_eq hy
      have hrows : word? ((of fb).height + 1) = some (fb.mode.height + 1) :=
        word?_eq (height_lt_wordLimit fb.mode)
      have hcol : mod? (x + i % rowWidth) (of fb).width =
          some ((x + i % rowWidth) % fb.mode.width) := mod?_eq (width_pos fb.mode)
      have hrow : mod? (y + i / rowWidth) (fb.mode.height + 1) =
          some ((y + i / rowWidth) % (fb.mode.height + 1)) := mod?_eq (Nat.succ_pos _)
      have hset := setPixel?_of fb bit (index_lt_wordLimit fb.mode
        (Nat.mod_lt (y + i / rowWidth) (Nat.succ_pos _))
        (Nat.mod_lt (x + i % rowWidth) (width_pos fb.mode)))
      have hmode := FrameBuffer.mode_setPixel fb ((y + i / rowWidth) % (fb.mode.height + 1))
        ((x + i % rowWidth) % fb.mode.width) bit
      have hnext := ih (fb.setPixel ((y + i / rowWidth) % (fb.mode.height + 1))
        ((x + i % rowWidth) % fb.mode.width) bit).2 (i + 1)
      rw [drawPixels?]
      simp only [hright, hdown, hrows, hcol, hrow, hset, mod?_eq hwidth, div?_eq hwidth,
        Option.bind_eq_bind, Option.bind_some]
      -- the pixel just set has the mode of the grid before, so the rest is placed as before
      rw [hnext _ (hlength ▸ hfits), hmode, List.mapIdx_cons]
      have hshift : (fun j bit => FrameBuffer.placePixel fb.mode x y rowWidth bit (i + (j + 1))) =
          fun j bit => FrameBuffer.placePixel fb.mode x y rowWidth bit (i + 1 + j) := by
        funext j bit
        rw [Nat.add_assoc, Nat.add_comm 1 j]
      rw [hshift, FrameBuffer.drawPlaced, Bool.or_assoc]
      rfl

/-- A sprite whose places are machine words before they wrap. -/
theorem drawSprite?_of (fb : FrameBuffer) {x y rowWidth : Nat} {pixels : List UInt8}
    (hfits : FrameBuffer.SpriteFits x y rowWidth pixels.length) :
    (of fb).drawSprite? x y rowWidth pixels =
      some ((fb.drawSprite x y rowWidth pixels).1, of (fb.drawSprite x y rowWidth pixels).2) := by
  rw [drawSprite?, FrameBuffer.drawSprite]
  by_cases hwidth : rowWidth = 0
  · rw [if_pos hwidth, if_pos hwidth]
  · rw [if_neg hwidth, if_neg hwidth]
    have hdraw := drawPixels?_of fb (Nat.pos_of_ne_zero hwidth) 0 false pixels
      (by rw [Nat.zero_add]; exact hfits)
    simp only [Nat.zero_add, Bool.false_or] at hdraw
    exact hdraw

/-! ## Afterglow -/

/-- A countdown is over with the update that finds it at one. -/
theorem shorten_eq_zero_iff (t : UInt32) : shorten t = 0 ↔ t ≤ 1 := by
  rw [shorten]
  split
  · rename_i hzero
    rw [hzero]
    decide
  · grind

theorem shorten_of_lt {t : UInt32} (h : ¬t ≤ 1) : shorten t = t - 1 := by
  refine if_neg ?_
  rintro rfl
  exact h (by decide)

/-- One cell can be aged. -/
theorem age?_of {i : Nat} (hcell : fb.cells[i]? = some cell) :
    age? i (of fb) = some (of (fb.setCell i cell.age)) := by
  have hindex : i < fb.cells.size := (Array.getElem?_eq_some_iff.1 hcell).1
  have hpending : (of fb).pending[i]? = some cell.pending := by
    simp only [of, Array.getElem?_map, hcell, Option.map_some]
  have htimer : (of fb).timers[i]? = some cell.timer := by
    simp only [of, Array.getElem?_map, hcell, Option.map_some]
  have hself := FrameBuffer.setCell_self hcell
  rw [age?]
  simp only [hpending, htimer, Option.bind_eq_bind, Option.bind_some]
  cases hp : cell.pending with
  | false =>
      have hage : cell.age = cell := by simp only [Cell.age, hp]
      rw [hage, hself]
      rfl
  | true =>
      cases ht : cell.timer with
      | none =>
          have hage : cell.age = cell := by simp only [Cell.age, hp, ht]
          rw [hage, hself]
          rfl
      | some t =>
          by_cases hlast : t ≤ 1
          -- the countdown is over: three arrays are written, the logical pixel is not
          · have hage : cell.age = { cell with pending := false, render := 0, timer := none } := by
              simp only [Cell.age, hp, ht, if_pos hlast]
            rw [hage, of_setCell]
            simp only [(shorten_eq_zero_iff t).2 hlast, if_true, of, write?_map_cells _ hindex,
              map_setIfInBounds_self Cell.logical hcell]
            rfl
          -- the countdown goes on: only the timer is written
          · have hage : cell.age = { cell with timer := some (t - 1) } := by
              simp only [Cell.age, hp, ht, if_neg hlast]
            have hmore : ¬t - 1 = 0 := by
              rw [← shorten_of_lt hlast, shorten_eq_zero_iff]
              exact hlast
            rw [hage, of_setCell]
            simp only [shorten_of_lt hlast, if_neg hmore, if_true, of, write?_map_cells _ hindex,
              map_setIfInBounds_self Cell.logical hcell, map_setIfInBounds_self Cell.render hcell,
              ← hp, map_setIfInBounds_self Cell.pending hcell]
            rfl

/-- The loop over all cells ages the grid. -/
theorem updateDecay?_of (fb : FrameBuffer) :
    (of fb).updateDecay? = some (of fb.updateDecay) := by
  -- before pass `i` the cells below `i` have aged
  let aged := fun i : Nat => of (fb.swept (fun _ cell => cell.age) (· < i))
  have hstart : aged 0 = of fb := congrArg of (FrameBuffer.swept_none fun _ _ => by simp)
  have hend : aged fb.cells.size = of fb.updateDecay := by
    refine congrArg of ((FrameBuffer.swept_all fun i _ hi hdone => ?_).trans ?_)
    · exact absurd hi (of_decide_eq_false hdone)
    · exact FrameBuffer.ext_cells rfl rfl rfl fun i => by simp [FrameBuffer.updateDecay]
  rw [updateDecay?, size_timers_of, ← hstart, ← hend]
  refine ascending?_eq aged fun i hi => ?_
  have hcell : (fb.swept (fun _ cell => cell.age) (· < i)).cells[i]? = some fb.cells[i] := by
    rw [FrameBuffer.getElem?_swept_of_not_done (by simp)]
    exact Array.getElem?_eq_getElem hi
  have hdone : ∀ j, j < fb.cells.size → decide (j < i + 1) = (decide (j < i) || j == i) :=
    fun j _ => FrameBuffer.decide_eq_or_beq Nat.lt_succ_iff_lt_or_eq
  have hnew : ∀ cell, fb.cells[i]? = some cell → fb.cells[i].age = cell.age := by
    intro cell h
    rw [(Array.getElem?_eq_some_iff.1 h).2]
  rw [age?_of hcell, FrameBuffer.setCell_swept hnew hdone]

end Screen

end Schip.Guarded
