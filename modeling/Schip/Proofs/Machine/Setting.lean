import Schip.Proofs.Machine.Activity
import Schip.Proofs.Machine.Footprint

/-!
# What execution leaves alone

The stored program, the option of the register transfers and the keys are the setting of a machine.
Instructions read the last two and write none of them, and neither does the rest of a cycle
(`setting_cycle`).
-/

set_option autoImplicit false

namespace Schip

/-- Part of a machine that instructions do not write. -/
structure Setting where
  program : Option (List UInt8)
  incrementIndex : Bool
  keypad : Keypad

namespace Machine

/-- Part of the machine that instructions do not write. -/
def setting (m : Machine) : Setting := ⟨m.program, m.incrementIndex, m.keypad⟩

/-! ## Instructions -/

theorem setting_storeByte (m : Machine) (address : Nat) (value : UInt8) :
    (m.storeByte address value).setting = m.setting := by
  rw [setting, footprint_storeByte, setting]

/-- No instruction changes the setting. -/
theorem setting_effect (m : Machine) (instruction : Instruction) :
    (m.effect instruction).setting = m.setting := by
  rw [setting, setting]
  cases instruction with
  | call => rw [effect, footprint_call]
  | ret => rw [effect, footprint_ret]
  | waitKey => rw [effect, footprint_waitKey, withRegisters]
  | draw | drawExtended => rw [effect, footprint_drawSprite]
  | storeBcd => rw [effect, footprint_storeBytes]
  | storeRegisters => rw [footprint_storeRegisters]
  | loadRegisters => rw [footprint_loadRegisters]
  | _ => rfl

/-! ## Cycles -/

theorem setting_fetch (m : Machine) : m.fetch.2.setting = m.setting := by
  rw [fetch]
  cases m.memory.word m.registers.pc.toNat <;> rfl

/-- Fetch and execution leave the setting. -/
theorem setting_fetchExecute (m : Machine) : m.fetchExecute.2.2.setting = m.setting := by
  cases hins : m.fetch.1 with
  | none =>
      rw [fetchExecute_of_none hins]
      exact setting_fetch m
  | some instruction =>
      rw [fetchExecute_of_some hins]
      exact (setting_effect m.fetch.2 instruction).trans (setting_fetch m)

/-- A cycle leaves the stored program, the option of the register transfers and the keys alone. -/
theorem setting_cycle (m : Machine) : m.cycle.2.setting = m.setting := by
  rw [cycle_eq]
  split
  · exact setting_fetchExecute m
  -- the tick of the timers and the advance are registers
  · exact setting_fetchExecute m

theorem keypad_cycle (m : Machine) : m.cycle.2.keypad = m.keypad :=
  congrArg Setting.keypad m.setting_cycle

theorem program_cycle (m : Machine) : m.cycle.2.program = m.program :=
  congrArg Setting.program (setting_cycle m)

theorem incrementIndex_cycle (m : Machine) : m.cycle.2.incrementIndex = m.incrementIndex :=
  congrArg Setting.incrementIndex (setting_cycle m)

end Machine

end Schip
