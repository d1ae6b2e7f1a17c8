import Schip.Fault

/-!
# Call stack

Sixteen slots for return addresses, filled from the highest one down. The pointer is the next free
slot: 15 when the stack is empty, -1 when it is full. Pushing on a full stack overwrites the lowest
slot. The view is `toList`, the addresses in the order in which they would be popped; `toList_push`
and `toList_pop` say what the operations do to it.
-/

set_option autoImplicit false

namespace Schip

/-- Slots and pointer. Slots at and above the free ones hold whatever was there last. -/
structure CallStack where
  slots : Vector UInt16 16
  pointer : Int
  deriving DecidableEq

namespace CallStack

/-- Pointer of an empty stack. -/
def emptyPointer : Int := 15

/-- Pointer of a full stack. -/
def fullPointer : Int := -1

/-- Stack without return addresses. -/
def empty : CallStack := ⟨Vector.replicate 16 0, emptyPointer⟩

/-- Number of return addresses. -/
def depth (s : CallStack) : Nat := (emptyPointer - s.pointer).toNat

/-- Return addresses, the one popped first in front. -/
def toList (s : CallStack) : List UInt16 :=
  s.slots.toList.drop (s.pointer + 1).toNat

/-- Stack after a push. A full stack keeps its depth, takes the value into its lowest slot and
reports an overflow. -/
def push (s : CallStack) (value : UInt16) : Except Fault Unit × CallStack :=
  if s.pointer = fullPointer then
    (.error .stackOverflow, { s with slots := s.slots.setIfInBounds 0 value })
  else
    (.ok (), ⟨s.slots.setIfInBounds s.pointer.toNat value, s.pointer - 1⟩)

/-- Address on top and the stack below it. An empty stack stays empty and reports an underflow. -/
def pop (s : CallStack) : Except Fault UInt16 × CallStack :=
  if s.pointer = emptyPointer then
    (.error .stackUnderflow, s)
  else
    (.ok (s.slots[(s.pointer + 1).toNat]?.getD 0), { s with pointer := s.pointer + 1 })

/-- Pointer between full and empty. -/
def Valid (s : CallStack) : Prop := fullPointer ≤ s.pointer ∧ s.pointer ≤ emptyPointer

theorem valid_empty : empty.Valid := by simp [Valid, empty, fullPointer, emptyPointer]

theorem toList_empty : empty.toList = [] := by decide

/-- The pointer stays in its range when an address is pushed, also onto a full stack. -/
theorem Valid.push {s : CallStack} (h : s.Valid) (value : UInt16) : (s.push value).2.Valid := by
  obtain ⟨low, high⟩ := h
  by_cases full : s.pointer = fullPointer
  · simpa only [Valid, CallStack.push, if_pos full] using And.intro low high
  · simp only [Valid, CallStack.push, if_neg full]
    simp only [fullPointer, emptyPointer] at *
    omega

/-- The pointer stays in its range when an address is popped, also from an empty stack. -/
theorem Valid.pop {s : CallStack} (h : s.Valid) : s.pop.2.Valid := by
  obtain ⟨low, high⟩ := h
  by_cases bottom : s.pointer = emptyPointer
  · simpa only [Valid, CallStack.pop, if_pos bottom] using And.intro low high
  · simp only [Valid, CallStack.pop, if_neg bottom]
    simp only [fullPointer, emptyPointer] at *
    omega

/-- The depth counts the addresses. -/
theorem length_toList {s : CallStack} (h : s.Valid) : s.toList.length = s.depth := by
  simp only [Valid, fullPointer, emptyPointer] at h
  simp [toList, depth, emptyPointer]
  omega

private theorem drop_set_self {α : Type} (l : List α) (n : Nat) (a : α) (h : n < l.length) :
    (l.set n a).drop n = a :: l.drop (n + 1) := by
  rw [List.drop_eq_getElem_cons (by simpa using h), List.getElem_set_self,
    List.drop_set_of_lt (by omega)]

/-- Onto a full stack, an address takes the place of the top. -/
theorem toList_push_full {s : CallStack} (h : s.pointer = fullPointer) (value : UInt16) :
    (s.push value).2.toList = value :: s.toList.tail := by
  simp only [CallStack.push, h, if_true, toList, Vector.toList_setIfInBounds, fullPointer]
  simpa using drop_set_self s.slots.toList 0 value (by simp)

/-- Below sixteen addresses, a pushed one comes on top. -/
theorem toList_push {s : CallStack} (h : s.Valid) (hf : s.pointer ≠ fullPointer)
    (value : UInt16) : (s.push value).2.toList = value :: s.toList := by
  obtain ⟨p, hp⟩ : ∃ p : Nat, s.pointer = p := by
    simp only [Valid, fullPointer] at h hf
    exact ⟨s.pointer.toNat, by omega⟩
  have hlt : p < s.slots.toList.length := by
    simp only [Valid, emptyPointer, hp] at h
    simp; omega
  simp only [CallStack.push, if_neg hf, toList, Vector.toList_setIfInBounds]
  rw [hp, Int.toNat_natCast, show ((p : Int) - 1 + 1).toNat = p by omega,
    show ((p : Int) + 1).toNat = p + 1 by omega]
  exact drop_set_self s.slots.toList p value hlt

/-- The address popped is the top, and the others stay. -/
theorem toList_pop {s : CallStack} (h : s.Valid) (he : s.pointer ≠ emptyPointer) :
    ∃ value, s.pop.1 = .ok value ∧ s.toList = value :: s.pop.2.toList := by
  obtain ⟨p, hp⟩ : ∃ p : Nat, s.pointer + 1 = p := by
    simp only [Valid, fullPointer] at h
    exact ⟨(s.pointer + 1).toNat, by omega⟩
  have hlt : p < 16 := by
    simp only [Valid, emptyPointer] at h he
    omega
  refine ⟨s.slots[p], ?_, ?_⟩
  · simp [CallStack.pop, he, hp, hlt]
  · simp only [CallStack.pop, he, if_false, toList, hp]
    rw [show ((p : Int) + 1).toNat = p + 1 by omega, Int.toNat_natCast,
      List.drop_eq_getElem_cons (by simpa using hlt)]
    simp

end CallStack

end Schip
