import Schip.Proofs.Machine.Activity
import Schip.Proofs.Machine.Footprint

/-!
# Call stack and timers

Of the registers, the call stack and the two timers belong to few instructions: calls and returns,
and those that set a timer. Every other instruction leaves all three alone (`bookkeeping_effect`),
and a timer changes only under the instruction that sets it (`timer_effect`). What a cycle does to
the sound timer follows from it (`sound_cycle_of_proceed`).
-/

set_option autoImplicit false

namespace Schip

/-- Call stack and timers. -/
structure Bookkeeping where
  stack : CallStack
  delay : UInt8
  sound : UInt8

/-- Call stack and timers of the registers. -/
def Registers.bookkeeping (r : Registers) : Bookkeeping := ⟨r.stack, r.delay, r.sound⟩

/-- One of the two timers. -/
inductive Timer where
  | delay
  | sound
  deriving DecidableEq

/-- Value of a timer. -/
def Registers.timer (r : Registers) : Timer → UInt8
  | .delay => r.delay
  | .sound => r.sound

/-- Whether an instruction sets a timer. -/
def Instruction.sets : Instruction → Timer → Bool
  | .setDelay _, .delay => true
  | .setSound _, .sound => true
  | _, _ => false

/-- Whether an instruction is for the call stack or a timer. -/
def Instruction.keepsBooks : Instruction → Bool
  | .call _ | .ret | .setDelay _ | .setSound _ => true
  | _ => false

namespace Machine

variable (m : Machine)

theorem bookkeeping_drawSprite (x y rowBytes rows : Nat) :
    (m.drawSprite x y rowBytes rows).registers.bookkeeping = m.registers.bookkeeping := by
  rw [Registers.bookkeeping, Registers.bookkeeping, footprint_drawSprite]

/-- Every instruction but those for the call stack and the timers leaves them alone. -/
theorem bookkeeping_effect {instruction : Instruction} (h : instruction.keepsBooks = false) :
    (m.effect instruction).registers.bookkeeping = m.registers.bookkeeping := by
  rw [Registers.bookkeeping, Registers.bookkeeping]
  cases instruction with
  | call | ret | setDelay | setSound => cases h
  | skipEqImm | skipNeImm | skipEqReg | skipNeReg | skipKeyDown | skipKeyUp =>
      rw [effect, footprint_skipIf, withRegisters]
  | waitKey => rw [effect, footprint_waitKey, withRegisters]
  | draw | drawExtended =>
      rw [effect, ← Registers.bookkeeping, ← Registers.bookkeeping, bookkeeping_drawSprite]
  | storeBcd => rw [effect, footprint_storeBytes]
  | storeRegisters => rw [footprint_storeRegisters]
  | loadRegisters => rw [footprint_loadRegisters]
  | _ => rfl

/-! ## Call stack -/

/-- Only calls and returns change the stack. -/
theorem stack_effect {instruction : Instruction} (hcall : ∀ target, instruction ≠ .call target)
    (hret : instruction ≠ .ret) : (m.effect instruction).registers.stack = m.registers.stack := by
  cases hbooks : instruction.keepsBooks with
  | false => exact congrArg Bookkeeping.stack (m.bookkeeping_effect hbooks)
  | true =>
      cases instruction with
      | call target => exact absurd rfl (hcall target)
      | ret => exact absurd rfl hret
      | setDelay | setSound => rfl
      | _ => cases hbooks

/-- A call pushes the program counter. -/
theorem stack_call (target : UInt16) :
    (m.call target).registers.stack = (m.registers.stack.push m.registers.pc).2 := by
  rw [call, Registers.push]
  rcases m.registers.stack.push m.registers.pc with ⟨_ | _, _⟩ <;> rfl

/-- A return pops the stack. -/
theorem stack_ret : m.ret.registers.stack = m.registers.stack.pop.2 := by
  rw [ret, Registers.pop]
  rcases m.registers.stack.pop with ⟨_ | _, _⟩ <;> rfl

/-- Neither the tick of the timers nor the report of a cycle touches the stack. -/
theorem stack_cycle : m.cycle.2.registers.stack = m.fetchExecute.2.2.registers.stack := by
  rw [cycle_eq]
  split <;> rfl

/-! ## Timers -/

/-- Only the instruction that sets it changes a timer. -/
theorem timer_effect (timer : Timer) {instruction : Instruction}
    (h : instruction.sets timer = false) :
    (m.effect instruction).registers.timer timer = m.registers.timer timer := by
  cases hbooks : instruction.keepsBooks with
  | false =>
      have hkept := m.bookkeeping_effect hbooks
      cases timer with
      | delay => exact congrArg Bookkeeping.delay hkept
      | sound => exact congrArg Bookkeeping.sound hkept
  | true =>
      cases instruction with
      | call =>
          rw [effect, footprint_call]
          cases timer <;> rfl
      | ret =>
          rw [effect, footprint_ret]
          cases timer <;> rfl
      | setDelay =>
          cases timer with
          | delay => cases h
          | sound => rfl
      | setSound =>
          cases timer with
          | delay => rfl
          | sound => cases h
      | _ => cases hbooks

/-- Every cycle but the one that ends the program ticks the timers after its instruction. -/
theorem timer_cycle_of_goes (timer : Timer) (h : m.cycle.1.outcome ≠ .exit) :
    m.cycle.2.registers.timer timer = countdown (m.fetchExecute.2.2.registers.timer timer) := by
  have hgoes : m.fetchExecute.2.1 ≠ .exit := h
  rw [cycle_eq, if_neg hgoes]
  cases timer <;> rfl

/-- An instruction that asks for no tone leaves the sound timer alone or sets it to zero. -/
theorem sound_effect_of_proceed {instruction : Instruction}
    (h : outcome m.registers instruction = .proceed) :
    (m.effect instruction).registers.sound = m.registers.sound ∨
      (m.effect instruction).registers.sound = 0 := by
  cases hsets : instruction.sets .sound with
  | false => exact Or.inl (m.timer_effect .sound hsets)
  | true =>
      cases instruction with
      | setSound x =>
          rw [outcome] at h
          split at h
          · cases h
          · next hzero => exact Or.inr (UInt8.le_zero_iff.1 (UInt8.not_lt.1 hzero))
      | _ => cases hsets

/-! ## Cycles -/

theorem registers_fetch : m.fetch.2.registers = m.registers := by
  rw [fetch]
  cases m.memory.word m.registers.pc.toNat <;> rfl

/-- What asks for no tone leaves the sound timer as it was or sets it to zero. -/
theorem sound_fetchExecute_of_proceed (h : m.fetchExecute.2.1 = .proceed) :
    m.fetchExecute.2.2.registers.sound = m.registers.sound ∨
      m.fetchExecute.2.2.registers.sound = 0 := by
  cases hins : m.fetch.1 with
  | none =>
      rw [fetchExecute_of_none hins, registers_fetch]
      exact Or.inl rfl
  | some instruction =>
      rw [fetchExecute_of_some hins] at h ⊢
      have heffect := m.fetch.2.sound_effect_of_proceed h
      rwa [registers_fetch] at heffect

/-- A cycle that asks for no tone leaves a sound timer that runs only if it ran before. -/
theorem sound_cycle_of_proceed (h : m.cycle.1.outcome = .proceed)
    (hruns : m.cycle.2.registers.sound ≠ 0) : m.registers.sound ≠ 0 := by
  have hproceed : m.fetchExecute.2.1 = .proceed := h
  have htick : m.cycle.2.registers.sound = countdown m.fetchExecute.2.2.registers.sound :=
    m.timer_cycle_of_goes .sound (by rw [h]; decide)
  intro hzero
  apply hruns
  -- a timer at zero stays there
  rcases m.sound_fetchExecute_of_proceed hproceed with hkept | hset
  · rw [htick, hkept, hzero]
    rfl
  · rw [htick, hset]
    rfl

end Machine

end Schip
