import Schip.Pacer
import Schip.Text.RealNumeral

/-!
# Speed on the command line

Reading of the speed multiplier: any real numeral, as long as its value lies in the range of speeds.
-/

set_option autoImplicit false

namespace Schip

/-- Reason why a text is no speed. -/
inductive SpeedError where
  | empty
  | invalid
  | outOfRange
  deriving DecidableEq, Repr

/-- Wording of the reason. -/
def SpeedError.message : SpeedError → String
  | empty => "cannot parse float from empty string"
  | invalid => "invalid float literal"
  | outOfRange => "must be between 0.01 and 100"

/-- Speed written in a text. -/
def readSpeed (text : String) : Except SpeedError Float :=
  if text.isEmpty then .error .empty
  else
    match RealNumeral.read? text with
    | none => .error .invalid
    | some numeral =>
      let speed := numeral.toFloat
      if Pacer.minSpeed ≤ speed && speed ≤ Pacer.maxSpeed then .ok speed else .error .outOfRange

end Schip
