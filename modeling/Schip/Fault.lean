import Schip.Text.Numeral

/-!
# Faults and errors

Two kinds of failure. A `Fault` is an anomaly inside a cycle: it is recorded, execution goes on with
a fallback, and it is handed out with the step. A `MachineError` ends an operation from outside the
machine, such as loading a program. Each has one function for its wording.
-/

set_option autoImplicit false

namespace Schip

open Numeral

/-- Anomaly met while an instruction is fetched or executed. -/
inductive Fault where
  /-- A word outside the instruction table. -/
  | unknownOpcode (word : UInt16)
  /-- A call with sixteen calls already open. -/
  | stackOverflow
  /-- A return with no call open. -/
  | stackUnderflow
  /-- An access past the end of memory, with the first address that is not there. -/
  | outOfRange (address : Nat)
  deriving DecidableEq, Repr

namespace Fault

/-- Number of the kind of fault on the diagnostic channel. -/
def code : Fault → Nat
  | unknownOpcode _ => 1
  | stackOverflow => 2
  | stackUnderflow => 3
  | outOfRange _ => 4

/-- Wording of a fault. -/
def message : Fault → String
  | unknownOpcode word => "invalid opcode 0x" ++ hexPadded 4 word.toNat
  | stackOverflow => "stack overflow"
  | stackUnderflow => "stack underflow"
  | outOfRange address => "memory address 0x" ++ hexPadded 4 address ++ " out of range"

end Fault

/-- Failure of an operation on the machine from outside a cycle. -/
inductive MachineError where
  /-- Reading failed, with the reason that the reader gave. -/
  | io (reason : String)
  /-- A program of `size` bytes where `limit` fit. -/
  | programTooLarge (size limit : Nat)
  /-- The lock on the machine is poisoned. -/
  | poisoned (reason : String)
  /-- A fault handed on as an error. -/
  | fault (fault : Fault)
  /-- The scheduler's task ended by a crash. -/
  | schedulerPanicked
  deriving DecidableEq, Repr

namespace MachineError

/-- Wording of an error. -/
def message : MachineError → String
  | io reason => "io error: " ++ reason
  | programTooLarge size limit =>
    "program is " ++ decimal size ++ " bytes; at most " ++ decimal limit ++ " fit above 0x200"
  | poisoned reason => "machine state lock poisoned: " ++ reason
  | fault f => f.message
  | schedulerPanicked => "scheduler thread panicked"

/-- What a user of a lock is told when another user failed while holding it. -/
def poisonReason : String := "poisoned lock: another task failed inside"

end MachineError

end Schip
