import Schip.Instruction.Mnemonic
import Schip.Log
import Schip.Machine

/-!
# Cycles

One cycle of the machine: fetch the word at the program counter, decode it, execute it, tick both
timers and advance. The instruction that ends a program leaves timers and program counter where they
were. Each cycle hands out the faults recorded since the last one.
-/

set_option autoImplicit false

namespace Schip

/-- Report of one cycle. -/
structure Step where
  /-- Address of the fetch. -/
  pc : UInt16
  /-- Instruction executed; none if the fetch ran past the end of memory. -/
  instruction : Option Instruction
  outcome : Outcome
  faults : List Fault
  deriving DecidableEq, Repr

namespace Machine

/-- Tick of both timers and advance of the program counter. -/
def finishCycle (m : Machine) : Machine :=
  m.withRegisters m.registers.tickTimers.advance

/-- Instruction at the program counter; a failed fetch is recorded. -/
def fetch (m : Machine) : Option Instruction × Machine :=
  match m.memory.word m.registers.pc.toNat with
  | .ok word => (some (Instruction.decode word), m)
  | .error fault => (none, m.record fault)

/-- Fetch and execution, before the end of the cycle. -/
def fetchExecute (m : Machine) : Option Instruction × Outcome × Machine :=
  match m.fetch with
  | (none, m') => (none, .proceed, m')
  | (some instruction, m') => (some instruction, m'.execute instruction)

/-- One cycle. -/
def cycle (m : Machine) : Step × Machine :=
  match m.fetchExecute with
  | (instruction, outcome, executed) =>
    match (if outcome = .exit then executed else executed.finishCycle).takeFaults with
    | (faults, m') => (⟨m.registers.pc, instruction, outcome, faults⟩, m')

end Machine

/-- Address as it stands in the log. -/
def addressLabel (pc : UInt16) : String := Numeral.hexPadded 3 pc.toNat

/-- Lines that the execution of an instruction at `pc` writes. -/
def Instruction.notices (pc : UInt16) : Instruction → List LogLine
  | .exit => [⟨.info, "program exited at " ++ addressLabel pc⟩]
  | .lowRes => [⟨.info, "switching to 64x32"⟩]
  | .highRes => [⟨.info, "switching to 128x64"⟩]
  | _ => []

/-- Lines that a cycle writes: the instruction as it is executed and what it announces. -/
def Step.log (step : Step) : List LogLine :=
  match step.instruction with
  | none => []
  | some instruction =>
    ⟨.trace, addressLabel step.pc ++ ": " ++ instruction.text⟩ :: instruction.notices step.pc

end Schip
