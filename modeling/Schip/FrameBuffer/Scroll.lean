import Schip.FrameBuffer

/-!
# Scrolling

Moves of the whole picture. Every cell that a scroll writes takes the logical pixel it moves and
loses its afterglow. Scrolling down moves all rows, the hidden one too; scrolling sideways moves the
visible rows only, column by column.
-/

set_option autoImplicit false

namespace Schip.FrameBuffer

/-- Columns that one scroll to the side moves. -/
def sidewaysColumns : Nat := 4

/-- Logical pixel at an index of the grid, dark outside. -/
def logicalAt (fb : FrameBuffer) (index : Nat) : UInt8 :=
  (fb.cells[index]?.map Cell.logical).getD 0

/-- Cells by which a scroll over `lines` rows shifts the grid. -/
def downShift (fb : FrameBuffer) (lines : Nat) : Nat :=
  min (fb.mode.width * lines) fb.cells.size

/-- Scroll down by `lines` rows; dark rows come in at the top. -/
def scrollDown (fb : FrameBuffer) (lines : Nat) : FrameBuffer :=
  let shift := fb.downShift lines
  { fb with cells := fb.cells.mapIdx fun i _ =>
      if i < shift then Cell.absolute 0 else Cell.absolute (fb.logicalAt (i - shift)) }

/-- Visible rows one column to the left; a dark column comes in at the right. -/
def leftColumn (fb : FrameBuffer) : FrameBuffer :=
  { fb with cells := fb.cells.mapIdx fun i cell =>
      if fb.mode.visibleCells ≤ i then cell
      else if i % fb.mode.width + 1 < fb.mode.width then Cell.absolute (fb.logicalAt (i + 1))
      else Cell.absolute 0 }

/-- Visible rows one column to the right; a dark column comes in at the left. -/
def rightColumn (fb : FrameBuffer) : FrameBuffer :=
  { fb with cells := fb.cells.mapIdx fun i cell =>
      if fb.mode.visibleCells ≤ i then cell
      else if 0 < i % fb.mode.width then Cell.absolute (fb.logicalAt (i - 1))
      else Cell.absolute 0 }

/-- An edit repeated. -/
def repeated (edit : FrameBuffer → FrameBuffer) : Nat → FrameBuffer → FrameBuffer
  | 0, fb => fb
  | n + 1, fb => repeated edit n (edit fb)

/-- Scroll to the left. -/
def scrollLeft (fb : FrameBuffer) : FrameBuffer := repeated leftColumn sidewaysColumns fb

/-- Scroll to the right. -/
def scrollRight (fb : FrameBuffer) : FrameBuffer := repeated rightColumn sidewaysColumns fb

theorem WellFormed.scrollDown {fb : FrameBuffer} (h : fb.WellFormed) (lines : Nat) :
    (fb.scrollDown lines).WellFormed := by
  simpa [WellFormed, FrameBuffer.scrollDown] using h

/-- What one edit keeps, its repetition keeps. -/
theorem repeated_preserves (P : FrameBuffer → Prop) (edit : FrameBuffer → FrameBuffer)
    (hP : ∀ fb, P fb → P (edit fb)) (n : Nat) (fb : FrameBuffer) (h : P fb) :
    P (repeated edit n fb) := by
  induction n generalizing fb with
  | zero => exact h
  | succ n ih => exact ih _ (hP fb h)

theorem WellFormed.scrollLeft {fb : FrameBuffer} (h : fb.WellFormed) :
    fb.scrollLeft.WellFormed :=
  repeated_preserves WellFormed leftColumn
    (fun _ h => by simpa [WellFormed, leftColumn] using h) _ fb h

theorem WellFormed.scrollRight {fb : FrameBuffer} (h : fb.WellFormed) :
    fb.scrollRight.WellFormed :=
  repeated_preserves WellFormed rightColumn
    (fun _ h => by simpa [WellFormed, rightColumn] using h) _ fb h

end Schip.FrameBuffer
