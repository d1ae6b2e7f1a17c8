import Schip.Plot
import Schip.Scheduler

/-!
# Displays

Where frames are shown. Any type of display will do; showing a frame may fail. Two displays need no
screen: one counts frames, one keeps what it was shown.
-/

set_option autoImplicit false

namespace Schip

/-- Display of frames. -/
class Display (δ : Type) where
  /-- Show a frame together with whether the machine runs. -/
  draw : δ → FrameBuffer → RunState → Except String Unit × δ

/-- Title of the picture in a state. -/
def RunState.title : RunState → String
  | running => "SUPER-CHIP"
  | paused => "SUPER-CHIP [paused]"
  | halted => "SUPER-CHIP [halted]"

/-- Rendered pixels that are exactly one, in the visible rows. -/
def FrameBuffer.litCount (fb : FrameBuffer) : Nat := fb.renderData.count 1

/-- Number of frames shown, and the lit pixels of the last one. -/
structure FrameCounter where
  frames : Nat := 0
  lit : Nat := 0
  deriving DecidableEq, Repr

instance : Display FrameCounter where
  draw counter frame _ := (.ok (), ⟨counter.frames + 1, frame.litCount⟩)

/-- Frames shown so far, the oldest first. The frame of a certain number is refused. -/
structure FrameAlbum where
  frames : List (FrameBuffer × RunState) := []
  /-- Number of the frame that is refused, and the reason. -/
  refusal : Option (Nat × String) := none

instance : Display FrameAlbum where
  draw album frame state :=
    match album.refusal with
    | some (number, reason) =>
      if album.frames.length = number then (.error reason, album)
      else (.ok (), { album with frames := album.frames ++ [(frame, state)] })
    | none => (.ok (), { album with frames := album.frames ++ [(frame, state)] })

end Schip
