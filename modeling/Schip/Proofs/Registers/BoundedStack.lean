import Schip.Registers

/-!
# The call stack as a bounded list

The call stack is sixteen slots that are filled downwards, a pointer that is -1 when the stack is
full, and whatever popped addresses leave behind in the slots above it. None of this can be seen
from outside: by its answers, its depth and its pointer the stack is a list of at most sixteen
addresses (`Lifo`), whatever is pushed, popped and reset in whatever order (`stack_refines_lifo`).

The link between the two is `Represents`, which every call keeps (`Registers.serve_represents`).
-/

set_option autoImplicit false

namespace Schip

/-- Call on the registers that concerns the stack. -/
inductive StackCall where
  | push (address : UInt16)
  | pop
  | reset
  deriving DecidableEq, Repr

/-- What can be seen of a call: its answer, with the address if one is popped, and the two counts
that can be asked for afterwards. -/
structure StackView where
  answer : Except Fault (Option UInt16)
  depth : Nat
  pointer : Int

/-- At most sixteen addresses, the last one pushed in front. -/
structure Lifo where
  addresses : List UInt16
  bounded : addresses.length ≤ 16

namespace Lifo

/-- No addresses. -/
def empty : Lifo := ⟨[], Nat.zero_le 16⟩

/-- Address added on top. In a full list it takes the place of the top, and an overflow is
reported. -/
def push (l : Lifo) (address : UInt16) : Except Fault Unit × Lifo :=
  if room : l.addresses.length < 16 then
    (.ok (), ⟨address :: l.addresses, room⟩)
  else
    (.error .stackOverflow, ⟨address :: l.addresses.tail, by
      have hbounded := l.bounded
      rw [List.length_cons, List.length_tail]
      omega⟩)

/-- Top of the list and the rest of it. An empty list stays as it is, and an underflow is
reported. -/
def pop : Lifo → Except Fault UInt16 × Lifo
  | ⟨[], h⟩ => (.error .stackUnderflow, ⟨[], h⟩)
  | ⟨top :: rest, h⟩ => (.ok top, ⟨rest, Nat.le_of_succ_le h⟩)

/-- Answer to a call, and the list after it. -/
def serve (l : Lifo) : StackCall → Except Fault (Option UInt16) × Lifo
  | .push address => ((l.push address).1.map fun _ => none, (l.push address).2)
  | .pop => (l.pop.1.map some, l.pop.2)
  | .reset => (.ok none, empty)

/-- What can be seen of calls in order. -/
def views (l : Lifo) : List StackCall → List StackView
  | [] => []
  | call :: rest =>
    ⟨(l.serve call).1, (l.serve call).2.addresses.length, 15 - (l.serve call).2.addresses.length⟩ ::
      (l.serve call).2.views rest

end Lifo

namespace Registers

/-- Answer to a call, and the registers after it. -/
def serve (r : Registers) : StackCall → Except Fault (Option UInt16) × Registers
  | .push address => ((r.push address).1.map fun _ => none, (r.push address).2)
  | .pop => (r.pop.1.map some, r.pop.2)
  | .reset => (.ok none, Registers.new)

/-- What can be seen of calls in order. -/
def views (r : Registers) : List StackCall → List StackView
  | [] => []
  | call :: rest =>
    ⟨(r.serve call).1, (r.serve call).2.stack.depth, (r.serve call).2.stack.pointer⟩ ::
      (r.serve call).2.views rest

end Registers

namespace CallStack

/-- The addresses on the stack are those of the list, in the order in which they are popped. -/
structure Represents (s : CallStack) (l : Lifo) : Prop where
  valid : s.Valid
  toList_eq : s.toList = l.addresses

variable {s : CallStack} {l : Lifo}

theorem represents_empty : empty.Represents Lifo.empty := ⟨valid_empty, toList_empty⟩

theorem Represents.depth_eq (h : s.Represents l) : s.depth = l.addresses.length := by
  rw [← length_toList h.valid, h.toList_eq]

/-- The pointer is fifteen less the length of the list. -/
theorem Represents.pointer_eq (h : s.Represents l) : s.pointer = 15 - l.addresses.length := by
  have hhigh := h.valid.2
  rw [← h.depth_eq, depth]
  simp only [emptyPointer] at hhigh ⊢
  omega

/-- The pointer says that the stack is full exactly if the list has no room. -/
theorem Represents.full_iff (h : s.Represents l) :
    s.pointer = fullPointer ↔ ¬l.addresses.length < 16 := by
  have hbounded := l.bounded
  rw [h.pointer_eq, fullPointer]
  omega

/-- The pointer says that the stack is empty exactly if the list is. -/
theorem Represents.empty_iff (h : s.Represents l) :
    s.pointer = emptyPointer ↔ l.addresses = [] := by
  rw [h.pointer_eq, emptyPointer, ← List.length_eq_zero_iff]
  omega

/-- A push is answered as the list answers it, and leads to what the list leads to. -/
theorem Represents.push (h : s.Represents l) (address : UInt16) :
    (s.push address).1 = (l.push address).1 ∧
      (s.push address).2.Represents (l.push address).2 := by
  rw [Lifo.push]
  by_cases hroom : l.addresses.length < 16
  · have hnotFull : s.pointer ≠ fullPointer := fun hfull => h.full_iff.1 hfull hroom
    rw [dif_pos hroom]
    refine ⟨by rw [CallStack.push, if_neg hnotFull], h.valid.push address, ?_⟩
    rw [toList_push h.valid hnotFull, h.toList_eq]
  · have hfull := h.full_iff.2 hroom
    rw [dif_neg hroom]
    refine ⟨by rw [CallStack.push, if_pos hfull], h.valid.push address, ?_⟩
    rw [toList_push_full hfull, h.toList_eq]

/-- A pop is answered as the list answers it, and leads to what the list leads to. -/
theorem Represents.pop (h : s.Represents l) :
    s.pop.1 = l.pop.1 ∧ s.pop.2.Represents l.pop.2 := by
  obtain ⟨addresses, bounded⟩ := l
  cases addresses with
  | nil =>
      have hempty := h.empty_iff.2 rfl
      rw [CallStack.pop, if_pos hempty]
      exact ⟨rfl, h⟩
  | cons top rest =>
      have hsome : s.pointer ≠ emptyPointer := fun hempty =>
        absurd (h.empty_iff.1 hempty) (List.cons_ne_nil top rest)
      obtain ⟨value, hvalue, htop⟩ := toList_pop h.valid hsome
      obtain ⟨rfl, hrest⟩ := List.cons.inj (h.toList_eq.symm.trans htop)
      exact ⟨hvalue, h.valid.pop, hrest.symm⟩

end CallStack

namespace Registers

variable {r : Registers} {l : Lifo}

/-- Every call is answered alike and leads to registers that represent the list after it. -/
theorem serve_represents (h : r.stack.Represents l) (call : StackCall) :
    (r.serve call).1 = (l.serve call).1 ∧
      (r.serve call).2.stack.Represents (l.serve call).2 := by
  cases call with
  | push address =>
      obtain ⟨hanswer, hafter⟩ := h.push address
      exact ⟨congrArg (Except.map fun _ => none) hanswer, hafter⟩
  | pop =>
      obtain ⟨hanswer, hafter⟩ := h.pop
      exact ⟨congrArg (Except.map some) hanswer, hafter⟩
  | reset => exact ⟨rfl, CallStack.represents_empty⟩

/-- Calls in order are answered as the list answers them, by induction on the calls. -/
theorem views_represents (h : r.stack.Represents l) (calls : List StackCall) :
    r.views calls = l.views calls := by
  induction calls generalizing r l with
  | nil => rfl
  | cons call rest ih =>
      obtain ⟨hanswer, hafter⟩ := serve_represents h call
      rw [views, Lifo.views, hanswer, hafter.depth_eq, hafter.pointer_eq, ih hafter]

/-- Whatever is pushed, popped and reset, the registers answer as a list of at most sixteen
addresses does, and their depth and pointer are those that the length of the list gives. A push and
a pop leave everything but the stack as it was; a reset leads back to the start. -/
theorem stack_refines_lifo :
    (∀ calls, Registers.new.views calls = Lifo.empty.views calls) ∧
      ∀ (r : Registers) (call : StackCall), (r.serve call).2 =
        if call = .reset then Registers.new else { r with stack := (r.serve call).2.stack } := by
  constructor
  · exact views_represents CallStack.represents_empty
  · intro r call
    cases call with
    | push | pop => rfl
    | reset => rfl

/-- The seventeenth address is reported and takes the place of the sixteenth. -/
example :
    ((Registers.new.views (List.replicate 16 (.push 0x200) ++ [.push 0xABC, .pop])).drop 16).map
        StackView.answer = [.error .stackOverflow, .ok (some 0xABC)] :=
  rfl

end Registers

end Schip
