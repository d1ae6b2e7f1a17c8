import Schip.FrameBuffer

/-!
# Pictures

A frame as lines of text, one character to a pixel.
-/

set_option autoImplicit false

namespace Schip

/-- Character of a cell: dark, fading or lit. -/
def Cell.character (cell : Cell) : Char :=
  if cell.render = 0 then ' ' else if cell.timer.isSome then '▒' else '█'

/-- Visible rows of a frame as text. -/
def FrameBuffer.picture (fb : FrameBuffer) : List String :=
  (List.range fb.mode.height).map fun row =>
    let first := row * fb.mode.width
    String.ofList ((fb.cells.extract first (first + fb.mode.width)).toList.map Cell.character)

end Schip
