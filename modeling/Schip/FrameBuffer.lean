import Schip.Resolution

/-!
# Frame buffer

The grid of pixels in either mode. A cell holds the logical pixel, at which drawing and collision
look; the rendered pixel, at which a display looks; and the afterglow of a pixel that was switched
off: a mark that it waits for removal and the countdown until then.

The grid has one row more than the screen shows. Sprites wrap over all rows, so one that runs off
the bottom passes through the hidden row, where pixels are set and collide but are not rendered.

Rows, columns and indices are unbounded natural numbers, so a place far outside the grid is never
taken for one inside. Every operation keeps the grid at the size of its mode (`WellFormed`).
-/

set_option autoImplicit false

namespace Schip

/-- Screen mode. -/
inductive Mode where
  | standard
  | extended
  deriving DecidableEq, Repr

namespace Mode

/-- Columns. -/
def width : Mode → Nat
  | standard => 64
  | extended => 128

/-- Visible rows. -/
def height : Mode → Nat
  | standard => 32
  | extended => 64

/-- Size of the visible picture. -/
def resolution (mode : Mode) : Resolution := ⟨mode.width, mode.height⟩

/-- Visible cells. -/
def visibleCells (mode : Mode) : Nat := mode.width * mode.height

/-- Cells including the hidden row. -/
def totalCells (mode : Mode) : Nat := mode.width * (mode.height + 1)

/-- Screen pixels to one cell that a renderer is advised to use. -/
def scale (mode : Mode) : Nat := 64 * 12 / mode.width

/-- Index of a cell by row and column. -/
def index (mode : Mode) (row col : Nat) : Nat := row * mode.width + col

end Mode

/-- One cell of the grid. -/
structure Cell where
  /-- The pixel that drawing works on. -/
  logical : UInt8
  /-- The pixel that a display shows. -/
  render : UInt8
  /-- Whether the cell waits for its rendered pixel to be removed. -/
  pending : Bool
  /-- Updates left until the rendered pixel is removed. -/
  timer : Option UInt32
  deriving DecidableEq, Repr

namespace Cell

/-- Dark cell without afterglow. -/
def blank : Cell := ⟨0, 0, false, none⟩

/-- Cell overwritten outright: shown as it is, without afterglow. -/
def absolute (value : UInt8) : Cell := ⟨value, value, false, none⟩

/-- Cell switched on; only a visible one is rendered. -/
def light (cell : Cell) (visible : Bool) : Cell :=
  { cell with
    logical := 1, pending := false, timer := none,
    render := if visible then 1 else cell.render }

/-- Cell switched off, with an afterglow of `delay` updates if flicker is to be reduced. -/
def extinguish (cell : Cell) (reduceFlicker : Bool) (delay : UInt32) : Cell :=
  { cell with
    logical := 0, pending := true, timer := some delay,
    render := if reduceFlicker then cell.render else 0 }

/-- Cell one update later: a countdown that reaches zero removes the rendered pixel. -/
def age (cell : Cell) : Cell :=
  match cell.pending, cell.timer with
  | true, some t =>
    if t ≤ 1 then { cell with pending := false, render := 0, timer := none }
    else { cell with timer := some (t - 1) }
  | _, _ => cell

end Cell

/-- Grid of cells with the two options of the afterglow. -/
structure FrameBuffer where
  mode : Mode
  /-- Cells row by row, the hidden row last. -/
  cells : Array Cell
  /-- Whether pixels that are switched off stay rendered for a while. -/
  reduceFlicker : Bool
  /-- Length of the afterglow in updates. -/
  decayDelay : UInt32
  deriving DecidableEq

namespace FrameBuffer

/-- Afterglow of blurred pixels. -/
def blurDelay : UInt32 := 60

/-- Afterglow of plain tiles. -/
def plainDelay : UInt32 := 15

/-- Blank grid of a mode. -/
def blankCells (mode : Mode) : Array Cell := Array.replicate mode.totalCells Cell.blank

/-- Frame buffer at power-on. -/
def new : FrameBuffer := ⟨.standard, blankCells .standard, true, blurDelay⟩

/-- Switch to a mode; the screen is blank afterwards, also if the mode stays the same. -/
def setMode (fb : FrameBuffer) (mode : Mode) : FrameBuffer :=
  { fb with mode := mode, cells := blankCells mode }

/-- Choice of whether pixels that are switched off stay rendered for a while. -/
def setReduceFlicker (fb : FrameBuffer) (on : Bool) : FrameBuffer :=
  { fb with reduceFlicker := on }

/-- Choice of the length of the afterglow, at least one update. -/
def setDecayDelay (fb : FrameBuffer) (delay : UInt32) : FrameBuffer :=
  { fb with decayDelay := max delay 1 }

/-- Blank screen in the same mode. -/
def clear (fb : FrameBuffer) : FrameBuffer :=
  { fb with cells := fb.cells.map fun _ => Cell.blank }

/-- Exclusive-or of one pixel, and whether a lit pixel was switched off. A zero bit and a place
outside the grid change nothing. -/
def setPixel (fb : FrameBuffer) (row col : Nat) (bit : UInt8) : Bool × FrameBuffer :=
  if bit = 0 ∨ fb.mode.width ≤ col then
    (false, fb)
  else
    let index := fb.mode.index row col
    match fb.cells[index]? with
    | none => (false, fb)
    | some cell =>
      if cell.logical = 1 then
        let dark := cell.extinguish fb.reduceFlicker fb.decayDelay
        (true, { fb with cells := fb.cells.setIfInBounds index dark })
      else
        let lit := cell.light (row < fb.mode.height)
        (false, { fb with cells := fb.cells.setIfInBounds index lit })

/-- One cell overwritten outright; an index outside the grid changes nothing. -/
def setAbsolute (fb : FrameBuffer) (index : Nat) (value : UInt8) : FrameBuffer :=
  { fb with cells := fb.cells.setIfInBounds index (Cell.absolute value) }

/-- Afterglow one update on, in every cell. -/
def updateDecay (fb : FrameBuffer) : FrameBuffer :=
  { fb with cells := fb.cells.map Cell.age }

/-- Logical pixel at a place; none past the end of the grid. -/
def pixel? (fb : FrameBuffer) (row col : Nat) : Option UInt8 :=
  fb.cells[fb.mode.index row col]?.map Cell.logical

/-- Whether a display shows the pixel at a place. Rows below the screen are never shown; a visible
row with a column past the end of the grid has no answer. -/
def isRendered? (fb : FrameBuffer) (row col : Nat) : Option Bool :=
  if row < fb.mode.height then
    fb.cells[fb.mode.index row col]?.map fun cell => cell.render == 1
  else
    some false

/-- Cells of the visible rows. -/
def visible (fb : FrameBuffer) : Array Cell := fb.cells.extract 0 fb.mode.visibleCells

/-- Rendered pixels of the visible rows. -/
def renderData (fb : FrameBuffer) : Array UInt8 := fb.visible.map Cell.render

/-- Logical pixels of the visible rows. -/
def logicalData (fb : FrameBuffer) : Array UInt8 := fb.visible.map Cell.logical

/-- Countdowns of the visible rows. -/
def decayTimers (fb : FrameBuffer) : Array (Option UInt32) := fb.visible.map Cell.timer

/-- Grid of the size that the mode asks for. -/
def WellFormed (fb : FrameBuffer) : Prop := fb.cells.size = fb.mode.totalCells

/-- A new grid has the cells of its mode. -/
theorem wellFormed_new : new.WellFormed := by simp [WellFormed, new, blankCells]

/-- A switch leaves a grid of the size that the new mode asks for. -/
theorem wellFormed_setMode (fb : FrameBuffer) (mode : Mode) : (fb.setMode mode).WellFormed := by
  simp [WellFormed, setMode, blankCells]

theorem mode_setPixel (fb : FrameBuffer) (row col : Nat) (bit : UInt8) :
    (fb.setPixel row col bit).2.mode = fb.mode := by
  unfold setPixel; grind

theorem size_setPixel (fb : FrameBuffer) (row col : Nat) (bit : UInt8) :
    (fb.setPixel row col bit).2.cells.size = fb.cells.size := by
  unfold setPixel; grind

theorem WellFormed.setPixel {fb : FrameBuffer} (h : fb.WellFormed) (row col : Nat)
    (bit : UInt8) : (fb.setPixel row col bit).2.WellFormed := by
  rw [WellFormed, size_setPixel, mode_setPixel]
  exact h

theorem WellFormed.setAbsolute {fb : FrameBuffer} (h : fb.WellFormed) (index : Nat)
    (value : UInt8) : (fb.setAbsolute index value).WellFormed := by
  simpa [WellFormed, FrameBuffer.setAbsolute] using h

theorem WellFormed.updateDecay {fb : FrameBuffer} (h : fb.WellFormed) :
    fb.updateDecay.WellFormed := by
  simpa [WellFormed, FrameBuffer.updateDecay] using h

theorem WellFormed.clear {fb : FrameBuffer} (h : fb.WellFormed) : fb.clear.WellFormed := by
  simpa [WellFormed, FrameBuffer.clear] using h

end FrameBuffer

end Schip
