import Schip.Machine

/-!
# Machines with an exchanged screen

Most instructions do not work on the screen. What such an instruction does to a machine whose screen
was exchanged is what it does to the machine, with the screen exchanged (`effect_withScreen`), so it
leaves the screen as it is (`screen_effect`).
-/

set_option autoImplicit false

namespace Schip

namespace Machine

section Exchange

variable (m : Machine) (fb : FrameBuffer)

@[simp] theorem registers_withScreen : (m.withScreen fb).registers = m.registers := rfl

@[simp] theorem memory_withScreen : (m.withScreen fb).memory = m.memory := rfl

@[simp] theorem screen_withScreen : (m.withScreen fb).screen = fb := rfl

@[simp] theorem keypad_withScreen : (m.withScreen fb).keypad = m.keypad := rfl

@[simp] theorem setV_withScreen (x : Nat) (value : UInt8) :
    (m.withScreen fb).setV x value = (m.setV x value).withScreen fb := rfl

@[simp] theorem setIndex_withScreen (value : UInt16) :
    (m.withScreen fb).setIndex value = (m.setIndex value).withScreen fb := rfl

@[simp] theorem loadByte_withScreen (address : Nat) :
    (m.withScreen fb).loadByte address =
      ((m.loadByte address).1, (m.loadByte address).2.withScreen fb) := by
  simp only [loadByte, memory_withScreen]
  cases m.memory.load address <;> rfl

@[simp] theorem storeByte_withScreen (address : Nat) (value : UInt8) :
    (m.withScreen fb).storeByte address value = (m.storeByte address value).withScreen fb := by
  simp only [storeByte, memory_withScreen]
  cases m.memory.store address value <;> rfl

/-- Loading bytes does not look at the screen. -/
@[simp] theorem loadBytes_withScreen (address count : Nat) :
    (m.withScreen fb).loadBytes address count =
      ((m.loadBytes address count).1, (m.loadBytes address count).2.withScreen fb) := by
  induction count generalizing m address with
  | zero => rfl
  | succ count ih => simp only [loadBytes, loadByte_withScreen, ih]

/-- Storing bytes does not look at the screen. -/
@[simp] theorem storeBytes_withScreen (address : Nat) (values : List UInt8) :
    (m.withScreen fb).storeBytes address values = (m.storeBytes address values).withScreen fb := by
  induction values generalizing m address with
  | nil => rfl
  | cons value values ih => simp only [storeBytes, storeByte_withScreen, ih]

/-- Setting registers does not look at the screen. -/
@[simp] theorem setRegisters_withScreen (x : Nat) (values : List UInt8) :
    (m.withScreen fb).setRegisters x values = (m.setRegisters x values).withScreen fb := by
  induction values generalizing m x with
  | nil => rfl
  | cons value values ih => simp only [setRegisters, setV_withScreen, ih]

@[simp] theorem bumpIndex_withScreen (x : Nat) :
    (m.withScreen fb).bumpIndex x = (m.bumpIndex x).withScreen fb := by
  -- the option is the same on both sides, and so is the number of registers
  show (if m.incrementIndex then _ else _) = _
  cases h : m.incrementIndex <;> simp [bumpIndex, h]

@[simp] theorem call_withScreen (target : UInt16) :
    (m.withScreen fb).call target = (m.call target).withScreen fb := by
  simp only [call, registers_withScreen]
  rcases m.registers.push m.registers.pc with ⟨_ | _, _⟩ <;> rfl

@[simp] theorem ret_withScreen : (m.withScreen fb).ret = m.ret.withScreen fb := by
  simp only [ret, registers_withScreen]
  rcases m.registers.pop with ⟨_ | _, _⟩ <;> rfl

/-- Waiting for a key does not look at the screen. -/
@[simp] theorem waitKey_withScreen (x : Nat) :
    (m.withScreen fb).waitKey x = (m.waitKey x).withScreen fb := by
  simp only [waitKey, keypad_withScreen]
  cases m.keypad.firstPressed? <;> rfl

end Exchange

end Machine

/-- Whether an instruction works on the screen. -/
def Instruction.usesScreen : Instruction → Bool
  | .scrollDown _ | .clearScreen | .scrollRight | .scrollLeft | .lowRes | .highRes => true
  | .draw _ _ _ | .drawExtended _ _ => true
  | _ => false

namespace Machine

/-- What an instruction that does not work on the screen does to a machine whose screen was
exchanged is what it does to the machine, with the screen exchanged. -/
theorem effect_withScreen (m : Machine) (fb : FrameBuffer) {instruction : Instruction}
    (h : instruction.usesScreen = false) :
    (m.withScreen fb).effect instruction = (m.effect instruction).withScreen fb := by
  cases instruction with
  | scrollDown | clearScreen | scrollRight | scrollLeft | lowRes | highRes => cases h
  | draw | drawExtended => cases h
  -- the instructions that look at the stack, the keys or the memory before they act
  | ret => exact ret_withScreen m fb
  | call target => exact call_withScreen m fb target
  | waitKey x => exact waitKey_withScreen m fb x
  | storeBcd x => exact storeBytes_withScreen m fb _ _
  | storeRegisters x =>
      simp only [effect, registers_withScreen, storeBytes_withScreen, bumpIndex_withScreen]
  | loadRegisters x =>
      simp only [effect, registers_withScreen, loadBytes_withScreen, setRegisters_withScreen,
        bumpIndex_withScreen]
  | _ => rfl

/-- Instructions that do not use the screen leave it. -/
theorem screen_effect (m : Machine) {instruction : Instruction}
    (h : instruction.usesScreen = false) : (m.effect instruction).screen = m.screen := by
  -- the machine is itself with its own screen put in
  have hself := effect_withScreen m m.screen h
  rw [show m.withScreen m.screen = m from rfl] at hself
  rw [hself]
  rfl

theorem screen_loadBytes (m : Machine) (address count : Nat) :
    (m.loadBytes address count).2.screen = m.screen := by
  have hself := congrArg (fun r => r.2.screen) (loadBytes_withScreen m m.screen address count)
  exact hself

end Machine

end Schip
