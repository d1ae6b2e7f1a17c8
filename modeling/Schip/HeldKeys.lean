import Schip.InputEvent

/-!
# Held keys

Terminals report presses and never releases, so a key counts as held until a certain time has passed
without another press of it. Times are milliseconds; a time before the press counts as no time
elapsed.
-/

set_option autoImplicit false

namespace Schip

/-- When each held key was last pressed. -/
@[ext]
structure HeldKeys where
  /-- Milliseconds after which a key counts as released. -/
  hold : Nat
  /-- Time of the last press of every held key. -/
  pressedAt : Vector (Option Nat) 16
  deriving DecidableEq

namespace HeldKeys

/-- Nothing held. -/
def new (hold : Nat) : HeldKeys := ⟨hold, Vector.replicate 16 none⟩

/-- Whether a key is held. -/
def isHeld (h : HeldKeys) (key : Fin 16) : Bool := h.pressedAt[key].isSome

/-- Number of a key as events carry it. -/
def keyNumber (key : Fin 16) : UInt8 := UInt8.ofNat key.val

/-- Press of a key. Only a key that was not held goes down; any press renews the time. -/
def press (h : HeldKeys) (key : Fin 16) (now : Nat) : List InputEvent × HeldKeys :=
  (if h.isHeld key then [] else [.keyDown (keyNumber key)],
    { h with pressedAt := h.pressedAt.set key (some now) })

/-- Whether a key is held and its time is over. -/
def isOver (h : HeldKeys) (now : Nat) (key : Fin 16) : Bool :=
  match h.pressedAt[key] with
  | some time => h.hold ≤ now - time
  | none => false

/-- Release of all keys whose time is over, in ascending order. -/
def expire (h : HeldKeys) (now : Nat) : List InputEvent × HeldKeys :=
  (((List.finRange 16).filter (h.isOver now)).map fun key => .keyUp (keyNumber key),
    { h with pressedAt := Vector.ofFn fun key =>
        if h.isOver now key then none else h.pressedAt[key] })

/-- After a press the key is held, and the others as before. -/
theorem isHeld_press (h : HeldKeys) (key other : Fin 16) (now : Nat) :
    (h.press key now).2.isHeld other = (decide (key = other) || h.isHeld other) := by
  simp only [isHeld, press, Fin.getElem_fin, Vector.getElem_set, Fin.ext_iff]
  split <;> simp_all

/-- A key is still held after an expiry if its time is not over. -/
theorem isHeld_expire (h : HeldKeys) (key : Fin 16) (now : Nat) :
    (h.expire now).2.isHeld key = (h.isHeld key && !h.isOver now key) := by
  simp only [isHeld, expire, Fin.getElem_fin, Vector.getElem_ofFn]
  split <;> simp_all

end HeldKeys

end Schip
