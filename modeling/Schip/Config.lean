import Schip.FrameBuffer
import Schip.Keymap
import Schip.RandomSource

/-!
# Configuration

Everything that can be tuned from outside, with its defaults.
-/

set_option autoImplicit false

namespace Schip

/-- Options of a run. -/
structure Config where
  /-- How characters press keys. -/
  keymap : Keymap := .literal
  /-- Whether the tone is played. -/
  sound : Bool := true
  /-- Whether pixels that are switched off stay rendered for a while. -/
  reduceFlicker : Bool := true
  /-- Length of the afterglow in updates. -/
  decayDelay : UInt32 := FrameBuffer.blurDelay
  /-- Multiplier of the instruction rate. -/
  speed : Float := 1.0
  /-- Whether register transfers leave the index past the last byte. -/
  incrementIndex : Bool := false
  /-- Milliseconds for which a reported key counts as held. -/
  keyHold : Nat := 100
  /-- Seed of the random bytes, for runs that can be repeated. -/
  seed : Option UInt64 := none

namespace Config

/-- Options with the shorter afterglow of plain tiles. -/
def plainTiles (config : Config) : Config :=
  { config with decayDelay := FrameBuffer.plainDelay }

/-- Random bytes of a run; without a seed they follow the entropy of the moment. -/
def randomSource (config : Config) (entropy : UInt64) : RandomSource :=
  .ofSeed (config.seed.getD entropy)

end Config

end Schip
