/-!
# Random bytes

An endless sequence of bytes and how many of them were drawn. The machine takes any sequence; the
seeded one is a fixed function of its seed, so that a run can be repeated.
-/

set_option autoImplicit false

namespace Schip

/-- Sequence of bytes with a position. -/
structure RandomSource where
  byte : Nat → UInt8
  drawn : Nat

namespace RandomSource

/-- Next byte, and the source after it. -/
def draw (source : RandomSource) : UInt8 × RandomSource :=
  (source.byte source.drawn, { source with drawn := source.drawn + 1 })

/-- Mixing of a word such that every bit of the result depends on all bits of the argument. -/
def mix (word : UInt64) : UInt64 :=
  let first := (word ^^^ (word >>> 30)) * 0xBF58476D1CE4E5B9
  let second := (first ^^^ (first >>> 27)) * 0x94D049BB133111EB
  second ^^^ (second >>> 31)

/-- Source determined by a seed: byte `i` is the top byte of the mixed counter. The generator is this
library's own; a standard generator draws other bytes from the same seed. -/
def ofSeed (seed : UInt64) : RandomSource where
  byte i := (mix (mix seed + UInt64.ofNat (i + 1) * 0x9E3779B97F4A7C15) >>> 56).toUInt8
  drawn := 0

end RandomSource

end Schip
