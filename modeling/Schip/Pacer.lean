import Schip.Text.Nanoseconds

/-!
# Pace

How often a batch of cycles is run. The rate is the pace scale of the screen mode times the batch
size, the nominal cost of a cycle and the speed; the period of one batch is kept and computed again
only when the pace scale changes.
-/

set_option autoImplicit false

namespace Schip

/-- Speed, pace scale, and the period in nanoseconds that belongs to them. -/
structure Pacer where
  speed : Float
  paceScale : UInt32
  period : Nat

namespace Pacer

/-- Cycles run back to back. -/
def batchSize : Nat := 15

/-- Nominal cost of a cycle in milliseconds. -/
def cycleMilliseconds : Float := 0.015

/-- Slowest speed. -/
def minSpeed : Float := 0.01

/-- Fastest speed. -/
def maxSpeed : Float := 100.0

/-- Batches in a second. -/
def batchRate (paceScale : UInt32) (speed : Float) : Float :=
  paceScale.toUInt64.toFloat * Float.ofNat batchSize * cycleMilliseconds * speed

/-- Period of a batch in nanoseconds; a pace scale of zero counts as one. -/
def periodFor (paceScale : UInt32) (speed : Float) : Nat :=
  Nanoseconds.ofSeconds (1.0 / batchRate (max paceScale 1) speed)

/-- Speed that is kept for a requested one: a speed that makes no sense counts as one, and others
are moved into the range. -/
def keptSpeed (speed : Float) : Float :=
  if !(speed.isFinite && speed > 0.0) then 1.0
  else if speed < minSpeed then minSpeed
  else if speed > maxSpeed then maxSpeed
  else speed

/-- Pacer for a pace scale and a requested speed. -/
def new (paceScale : UInt32) (speed : Float) : Pacer :=
  ⟨keptSpeed speed, paceScale, periodFor paceScale (keptSpeed speed)⟩

/-- Pacer after the pace scale is set. -/
def setPaceScale (p : Pacer) (paceScale : UInt32) : Pacer :=
  if paceScale = p.paceScale then p
  else { p with paceScale := paceScale, period := periodFor paceScale p.speed }

end Pacer

end Schip
