import Schip.Machine

/-!
# What the steps of an instruction write

One equation for each step that instructions share: the machine after it is the machine before it,
with only the fields named there replaced. That any other field is kept is such an equation read at
that field, so a module about some part of the machine needs no lemma of its own for each step.
-/

set_option autoImplicit false

namespace Schip.Machine

variable (m : Machine)

/-! ## Memory -/

theorem footprint_loadByte (address : Nat) :
    (m.loadByte address).2 = { m with faults := (m.loadByte address).2.faults } := by
  rw [loadByte]
  cases m.memory.load address <;> rfl

/-- Loading bytes touches nothing but the faults. -/
theorem footprint_loadBytes (address count : Nat) :
    (m.loadBytes address count).2 = { m with faults := (m.loadBytes address count).2.faults } := by
  induction count generalizing m address with
  | zero => rfl
  | succ count ih =>
      have hrest := ih (m.loadByte address).2 (address + 1)
      show ((m.loadByte address).2.loadBytes (address + 1) count).2 =
        { m with faults := ((m.loadByte address).2.loadBytes (address + 1) count).2.faults }
      generalize ((m.loadByte address).2.loadBytes (address + 1) count).2 = read at hrest ⊢
      rw [hrest, footprint_loadByte]

theorem footprint_storeByte (address : Nat) (value : UInt8) :
    m.storeByte address value = { m with
      memory := (m.storeByte address value).memory
      faults := (m.storeByte address value).faults } := by
  rw [storeByte]
  cases m.memory.store address value <;> rfl

/-- Storing bytes touches the memory and the faults. -/
theorem footprint_storeBytes (address : Nat) (values : List UInt8) :
    m.storeBytes address values = { m with
      memory := (m.storeBytes address values).memory
      faults := (m.storeBytes address values).faults } := by
  induction values generalizing m address with
  | nil => rfl
  | cons value rest ih =>
      have hrest := ih (m.storeByte address value) (address + 1)
      rw [storeBytes]
      generalize (m.storeByte address value).storeBytes (address + 1) rest = stored at hrest ⊢
      rw [hrest, footprint_storeByte]

/-! ## Registers -/

/-- Setting registers touches the general registers. -/
theorem footprint_setRegisters (x : Nat) (values : List UInt8) :
    m.setRegisters x values = m.withRegisters { m.registers with
      general := (m.setRegisters x values).registers.general } := by
  induction values generalizing m x with
  | nil => rfl
  | cons value rest ih => exact ih _ _

/-- The increment touches the index. -/
theorem footprint_bumpIndex (x : Nat) :
    m.bumpIndex x = m.withRegisters { m.registers with
      index := (m.bumpIndex x).registers.index } := by
  rw [bumpIndex]
  split <;> rfl

theorem footprint_skipIf (condition : Bool) :
    m.skipIf condition = m.withRegisters { m.registers with
      pc := (m.skipIf condition).registers.pc } := by
  cases condition <;> rfl

/-- Waiting for a key touches the general registers and the program counter. -/
theorem footprint_waitKey (x : Nat) :
    m.waitKey x = m.withRegisters { m.registers with
      general := (m.waitKey x).registers.general
      pc := (m.waitKey x).registers.pc } := by
  rw [waitKey]
  cases m.keypad.firstPressed? <;> rfl

/-! ## Calls and sprites -/

/-- A call touches the program counter, the stack and the faults. -/
theorem footprint_call (target : UInt16) :
    m.call target = { m with
      registers := { m.registers with
        stack := (m.call target).registers.stack
        pc := (m.call target).registers.pc }
      faults := (m.call target).faults } := by
  rw [call, Registers.push]
  rcases m.registers.stack.push m.registers.pc with ⟨_ | _, _⟩ <;> rfl

/-- A return touches the program counter, the stack and the faults. -/
theorem footprint_ret :
    m.ret = { m with
      registers := { m.registers with
        stack := m.ret.registers.stack
        pc := m.ret.registers.pc }
      faults := m.ret.faults } := by
  rw [ret, Registers.pop]
  rcases m.registers.stack.pop with ⟨_ | _, _⟩ <;> rfl

/-- A sprite touches the screen, the flag and the faults. -/
theorem footprint_drawSprite (x y rowBytes rows : Nat) :
    m.drawSprite x y rowBytes rows = { m with
      screen := (m.drawSprite x y rowBytes rows).screen
      registers := { m.registers with
        general := (m.drawSprite x y rowBytes rows).registers.general }
      faults := (m.drawSprite x y rowBytes rows).faults } := by
  have hload := m.footprint_loadBytes m.registers.index.toNat (rowBytes * rows)
  rw [drawSprite]
  -- once the sprite is loaded, only the screen and the flag are written
  generalize m.loadBytes m.registers.index.toNat (rowBytes * rows) = loaded at hload ⊢
  obtain ⟨sprite, read⟩ := loaded
  replace hload : read = { m with faults := read.faults } := hload
  rw [hload]
  rfl

/-! ## Register transfers -/

/-- Storing registers touches the memory, the index and the faults. -/
theorem footprint_storeRegisters (x : Nat) :
    m.effect (.storeRegisters x) = { m with
      memory := (m.effect (.storeRegisters x)).memory
      registers := { m.registers with index := (m.effect (.storeRegisters x)).registers.index }
      faults := (m.effect (.storeRegisters x)).faults } := by
  have hstore := m.footprint_storeBytes m.registers.index.toNat
    ((List.range (x + 1)).map m.registers.v)
  rw [effect]
  generalize m.storeBytes m.registers.index.toNat _ = stored at hstore ⊢
  rw [footprint_bumpIndex, hstore]
  rfl

/-- Loading registers touches the general registers, the index and the faults. -/
theorem footprint_loadRegisters (x : Nat) :
    m.effect (.loadRegisters x) = { m with
      registers := { m.registers with
        general := (m.effect (.loadRegisters x)).registers.general
        index := (m.effect (.loadRegisters x)).registers.index }
      faults := (m.effect (.loadRegisters x)).faults } := by
  have hload := m.footprint_loadBytes m.registers.index.toNat (x + 1)
  rw [effect]
  generalize m.loadBytes m.registers.index.toNat (x + 1) = loaded at hload ⊢
  obtain ⟨values, read⟩ := loaded
  replace hload : read = { m with faults := read.faults } := hload
  dsimp only
  rw [footprint_bumpIndex, footprint_setRegisters, hload]
  rfl

end Schip.Machine
