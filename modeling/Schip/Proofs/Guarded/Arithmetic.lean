import Schip.FrameBuffer.Checked

/-!
# Guarded arithmetic, accesses and loops

The steps at which a program on a 64-bit computer can abort. A sum or a product has to be a machine
word again, a difference must not be negative, a divisor must not be zero, and an index has to be
one of the array. Each step gives `none` where it aborts, and so does everything that contains it.

Loops run over the indices below a bound, upwards or downwards. `ascending?_eq` and `descending?_eq`
are the rules for them: a sequence of states that the body follows step by step.
-/

set_option autoImplicit false

namespace Schip.Guarded

open FrameBuffer (wordLimit)

/-- Result of a sum or a product, if it is a machine word. -/
def word? (n : Nat) : Option Nat := if n < wordLimit then some n else none

/-- Result of a sum of sixteen-bit numbers, if it is one. -/
def short? (n : Nat) : Option UInt16 := if n < 1 <<< 16 then some (UInt16.ofNat n) else none

/-- Least number that is not a signed machine word. -/
def signedLimit : Nat := 1 <<< 63

/-- Result of signed arithmetic, if it is a signed machine word. -/
def signed? (n : Int) : Option Int :=
  if -(signedLimit : Int) ≤ n ∧ n < signedLimit then some n else none

/-- Index of an array by a signed number; a negative one stands for an index past all arrays. -/
def slot? (n : Int) : Option Nat := if 0 ≤ n then some n.toNat else none

/-- Difference, if it is not negative. -/
def sub? (a b : Nat) : Option Nat := if b ≤ a then some (a - b) else none

/-- Quotient, if the divisor is not zero. -/
def div? (a b : Nat) : Option Nat := if b = 0 then none else some (a / b)

/-- Remainder, if the divisor is not zero. -/
def mod? (a b : Nat) : Option Nat := if b = 0 then none else some (a % b)

/-- Array after a write, if the index exists. -/
def write? {α : Type} (xs : Array α) (index : Nat) (value : α) : Option (Array α) :=
  if index < xs.size then some (xs.setIfInBounds index value) else none

/-- Part of an array from `start` up to `stop`, if both are in order and in range. -/
def slice? {α : Type} (xs : Array α) (start stop : Nat) : Option (Array α) :=
  if start ≤ stop ∧ stop ≤ xs.size then some (xs.extract start stop) else none

/-- Loop over the indices `0, ..., n - 1`. -/
def ascending? {S : Type} (body : Nat → S → Option S) : Nat → S → Option S
  | 0, s => some s
  | n + 1, s => (ascending? body n s).bind (body n)

/-- Loop over the indices `n - 1, ..., 0`. -/
def descending? {S : Type} (body : Nat → S → Option S) : Nat → S → Option S
  | 0, s => some s
  | n + 1, s => (body n s).bind (descending? body n)

section Steps

variable {a b n : Nat}

theorem word?_eq (h : n < wordLimit) : word? n = some n := if_pos h

/-- Numbers below two to the power thirty-two pass the guard of a word. -/
theorem word?_of_small (h : n < 1 <<< 32) : word? n = some n :=
  word?_eq (Nat.lt_trans h (by decide))

theorem sub?_eq (h : b ≤ a) : sub? a b = some (a - b) := if_pos h

theorem div?_eq (h : 0 < b) : div? a b = some (a / b) := if_neg (Nat.ne_of_gt h)

theorem mod?_eq (h : 0 < b) : mod? a b = some (a % b) := if_neg (Nat.ne_of_gt h)

theorem short?_eq (h : n < 1 <<< 16) : short? n = some (UInt16.ofNat n) := if_pos h

/-- Numbers as small as the pointer of the call stack pass the guard of a signed word. -/
theorem signed?_of_small {n : Int} (low : -16 ≤ n) (high : n ≤ 16) : signed? n = some n := by
  have hlimit : signedLimit = 9223372036854775808 := rfl
  exact if_pos (by omega)

theorem slot?_eq {n : Int} (h : 0 ≤ n) : slot? n = some n.toNat := if_pos h

theorem write?_eq {α : Type} {xs : Array α} {index : Nat} (h : index < xs.size) (value : α) :
    write? xs index value = some (xs.setIfInBounds index value) := if_pos h

/-- A write within a vector. -/
theorem write?_toArray {α : Type} {size index : Nat} (xs : Vector α size) (h : index < size)
    (value : α) : write? xs.toArray index value = some (xs.set index value h).toArray := by
  rw [write?_eq (by rw [Vector.size_toArray]; exact h), Array.setIfInBounds,
    dif_pos (by rw [Vector.size_toArray]; exact h)]
  rfl

/-- A read within a vector. -/
theorem getElem?_toArray {α : Type} {size index : Nat} (xs : Vector α size) (h : index < size) :
    xs.toArray[index]? = some xs[index] := by
  rw [Array.getElem?_eq_getElem (by rw [Vector.size_toArray]; exact h)]
  rfl

theorem slice?_eq {α : Type} {xs : Array α} {start stop : Nat} (h : start ≤ stop)
    (hstop : stop ≤ xs.size) : slice? xs start stop = some (xs.extract start stop) :=
  if_pos ⟨h, hstop⟩

end Steps

section Loops

variable {S : Type} {body : Nat → S → Option S} {n : Nat}

/-- A loop upwards does not abort if each pass leads from one state to the next. -/
theorem ascending?_eq (state : Nat → S)
    (hstep : ∀ i, i < n → body i (state i) = some (state (i + 1))) :
    ascending? body n (state 0) = some (state n) := by
  induction n with
  | zero => rfl
  | succ n ih =>
      -- the last pass is the outermost one
      have hrest := ih fun i hi => hstep i (Nat.lt_succ_of_lt hi)
      rw [ascending?, hrest, Option.bind_some]
      exact hstep n (Nat.lt_succ_self n)

/-- A loop downwards does not abort if each pass leads from one state to the one before. -/
theorem descending?_eq (state : Nat → S)
    (hstep : ∀ i, i < n → body i (state (i + 1)) = some (state i)) :
    descending? body n (state n) = some (state 0) := by
  induction n with
  | zero => rfl
  | succ n ih =>
      rw [descending?, hstep n (Nat.lt_succ_self n), Option.bind_some]
      exact ih fun i hi => hstep i (Nat.lt_succ_of_lt hi)

end Loops

end Schip.Guarded
