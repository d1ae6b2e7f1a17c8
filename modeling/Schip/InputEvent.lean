/-!
# Input events

What the input side can tell the rest of the program.
-/

set_option autoImplicit false

namespace Schip

/-- Event from the keyboard. -/
inductive InputEvent where
  /-- A key of the keypad went down. -/
  | keyDown (key : UInt8)
  /-- A key of the keypad went up. -/
  | keyUp (key : UInt8)
  /-- Pause or its end. -/
  | togglePause
  /-- Start the program again. -/
  | reset
  /-- End the session. -/
  | quit
  deriving DecidableEq, Repr

end Schip
