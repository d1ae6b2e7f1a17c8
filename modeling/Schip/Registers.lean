import Schip.CallStack
import Schip.Memory

/-!
# Registers

Sixteen general registers of one byte, the index register, the program counter, the call stack and
two timers. Register numbers are read modulo sixteen. Register fifteen doubles as the flag of
arithmetic and drawing.
-/

set_option autoImplicit false

namespace Schip

/-- State of the processor that programs can see. -/
structure Registers where
  general : Vector UInt8 16
  index : UInt16
  pc : UInt16
  stack : CallStack
  delay : UInt8
  sound : UInt8
  deriving DecidableEq

/-- Timer value after one tick; zero stays zero. -/
def countdown (timer : UInt8) : UInt8 :=
  if timer = 0 then 0 else timer - 1

namespace Registers

/-- Number of the flag register. -/
def flag : Nat := 0xF

/-- Registers at power-on: all zero, the program counter at the program. -/
def new : Registers where
  general := Vector.replicate 16 0
  index := 0
  pc := UInt16.ofNat Memory.programBase
  stack := CallStack.empty
  delay := 0
  sound := 0

/-- General register that a number means: its low four bits count. -/
def select (number : Nat) : Fin 16 := ⟨number % 16, Nat.mod_lt _ (by decide)⟩

/-- Value of a general register. -/
def v (r : Registers) (number : Nat) : UInt8 := r.general[select number]

/-- Registers after one general register is set. -/
def setV (r : Registers) (number : Nat) (value : UInt8) : Registers :=
  { r with general := r.general.set (select number) value }

/-- Registers with another index. -/
def setIndex (r : Registers) (value : UInt16) : Registers := { r with index := value }

/-- Registers with another program counter. -/
def setPc (r : Registers) (value : UInt16) : Registers := { r with pc := value }

/-- Registers with another delay timer. -/
def setDelay (r : Registers) (value : UInt8) : Registers := { r with delay := value }

/-- Registers with another sound timer. -/
def setSound (r : Registers) (value : UInt8) : Registers := { r with sound := value }

/-- A register is set for all numbers that mean it, and no other register changes. -/
theorem v_setV (r : Registers) (x y : Nat) (value : UInt8) :
    (r.setV x value).v y = if select x = select y then value else r.v y := by
  simp [v, setV, Vector.getElem_set, Fin.ext_iff]

/-- Return address pushed on the call stack. -/
def push (r : Registers) (value : UInt16) : Except Fault Unit × Registers :=
  match r.stack.push value with
  | (result, stack) => (result, { r with stack := stack })

/-- Return address popped from the call stack. -/
def pop (r : Registers) : Except Fault UInt16 × Registers :=
  match r.stack.pop with
  | (result, stack) => (result, { r with stack := stack })

/-- One tick of both timers. -/
def tickTimers (r : Registers) : Registers :=
  { r with delay := countdown r.delay, sound := countdown r.sound }

/-- Program counter one instruction on. -/
def advance (r : Registers) : Registers := r.setPc (r.pc + 2)

/-- Program counter one instruction back. -/
def rewind (r : Registers) : Registers := r.setPc (r.pc - 2)

/-- Program counter so far before `target` that the advance at the end of the cycle lands on it. -/
def jump (r : Registers) (target : UInt16) : Registers := r.setPc (target - 2)

/-- Skip of the next instruction under a condition. -/
def skipIf (r : Registers) (condition : Bool) : Registers :=
  if condition then r.advance else r

end Registers

end Schip
