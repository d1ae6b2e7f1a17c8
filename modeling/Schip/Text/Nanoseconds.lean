import Schip.Rounding

/-!
# Nanoseconds

Whole nanoseconds nearest to a number of seconds. A finite binary number is a whole number times a
power of two, so the rounding is exact; a value halfway between two nanoseconds goes to the even
one.
-/

set_option autoImplicit false

namespace Schip.Nanoseconds

/-- Nanoseconds of one second. -/
def perSecond : Nat := 1000000000

/-- Whole number of a finite binary number, by its bits. -/
def significand (bits : UInt64) : Nat :=
  let fraction := bits.toNat % (1 <<< 52)
  if bits.toNat / (1 <<< 52) % (1 <<< 11) = 0 then fraction else fraction + (1 <<< 52)

/-- Power of two of a finite binary number, by its bits, increased by 1074. -/
def scaledExponent (bits : UInt64) : Nat :=
  bits.toNat / (1 <<< 52) % (1 <<< 11) - 1

/-- Whole nanoseconds nearest to a number of seconds that is neither negative nor infinite. -/
def ofSeconds (seconds : Float) : Nat :=
  let bits := seconds.toBits
  Rounding.roundDiv ((significand bits * perSecond) <<< scaledExponent bits) (1 <<< 1074)

end Schip.Nanoseconds
