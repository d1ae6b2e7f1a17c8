import Schip.FrameBuffer

/-!
# Plot

What a canvas draws of a frame buffer: the rendered pixels of the visible rows as points, split into
lit ones and fading ones. Points are listed row by row; rows count downward from zero.
-/

set_option autoImplicit false

namespace Schip

/-- Points of a frame by colour. -/
structure Plot where
  lit : List (Int × Int)
  fading : List (Int × Int)
  deriving DecidableEq, Repr

namespace FrameBuffer

/-- Size of the picture that a frame buffer shows. -/
def resolution (fb : FrameBuffer) : Resolution := fb.mode.resolution

/-- Canvas coordinates of a cell by its index. -/
def point (fb : FrameBuffer) (index : Nat) : Int × Int :=
  (Int.ofNat (index % fb.mode.width), -Int.ofNat (index / fb.mode.width))

/-- Points of the rendered visible cells that satisfy a condition, row by row. -/
def pointsWhere (fb : FrameBuffer) (condition : Cell → Bool) : List (Int × Int) :=
  fb.visible.toList.zipIdx.filterMap fun (cell, index) =>
    if cell.render ≠ 0 && condition cell then some (fb.point index) else none

/-- Plot of a frame: a rendered cell fades while its countdown runs and is lit otherwise. -/
def plot (fb : FrameBuffer) : Plot where
  lit := fb.pointsWhere fun cell => cell.timer.isNone
  fading := fb.pointsWhere fun cell => cell.timer.isSome

end FrameBuffer

end Schip
