/-!
# Keypad

Sixteen keys, each down or up. Key numbers are read modulo sixteen.
-/

set_option autoImplicit false

namespace Schip

/-- Which keys are down. -/
structure Keypad where
  down : Vector Bool 16
  deriving DecidableEq

namespace Keypad

/-- Keypad with no key down. -/
def clear : Keypad := ⟨Vector.replicate 16 false⟩

/-- Key that a number means: its low four bits count. -/
def select (key : UInt8) : Fin 16 := ⟨key.toNat % 16, Nat.mod_lt _ (by decide)⟩

/-- Keypad after a key changes. -/
def setKey (k : Keypad) (key : UInt8) (pressed : Bool) : Keypad :=
  ⟨k.down.set (select key) pressed⟩

/-- Keypad after a key goes down. -/
def press (k : Keypad) (key : UInt8) : Keypad := k.setKey key true

/-- Keypad after a key goes up. -/
def release (k : Keypad) (key : UInt8) : Keypad := k.setKey key false

/-- Whether a key is down. -/
def isPressed (k : Keypad) (key : UInt8) : Bool := k.down[select key]

/-- A key is set for all numbers that mean it, and no other key changes. -/
theorem isPressed_setKey (k : Keypad) (a b : UInt8) (pressed : Bool) :
    (k.setKey a pressed).isPressed b = if select a = select b then pressed else k.isPressed b := by
  simp [isPressed, setKey, Vector.getElem_set, Fin.ext_iff]

/-- Numbers of all keys, ascending. -/
def keys : List UInt8 := (List.range 16).map UInt8.ofNat

/-- Keys that are down, ascending. -/
def pressed (k : Keypad) : List UInt8 := keys.filter k.isPressed

/-- Lowest key that is down. -/
def firstPressed? (k : Keypad) : Option UInt8 := keys.find? k.isPressed

end Keypad

end Schip
