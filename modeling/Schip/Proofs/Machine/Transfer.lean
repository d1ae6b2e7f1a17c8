import Schip.Proofs.Machine.Footprint

/-!
# Transfers byte by byte

Bytes in a row are loaded and stored front to back. The lemmas here take the last byte off instead,
which is how a loop with a growing bound meets them, and say that loading a byte does not look at the
registers and that a byte that was stored is loaded again.
-/

set_option autoImplicit false

namespace Schip.Machine

variable (m : Machine)

/-- The last byte is stored behind all others. -/
theorem storeBytes_append (address : Nat) (values : List UInt8) (value : UInt8) :
    m.storeBytes address (values ++ [value]) =
      (m.storeBytes address values).storeByte (address + values.length) value := by
  induction values generalizing m address with
  | nil => rfl
  | cons first rest ih =>
      rw [List.cons_append, storeBytes, storeBytes, ih, List.length_cons, Nat.add_assoc,
        Nat.add_comm 1]

theorem loadBytes_cons (address count : Nat) :
    m.loadBytes address (count + 1) =
      ((m.loadByte address).1 :: ((m.loadByte address).2.loadBytes (address + 1) count).1,
        ((m.loadByte address).2.loadBytes (address + 1) count).2) := rfl

/-- The last byte is loaded behind all others. -/
theorem loadBytes_succ (address count : Nat) :
    m.loadBytes address (count + 1) =
      ((m.loadBytes address count).1 ++
          [((m.loadBytes address count).2.loadByte (address + count)).1],
        ((m.loadBytes address count).2.loadByte (address + count)).2) := by
  induction count generalizing m address with
  | zero => rfl
  | succ count ih =>
      -- the first byte comes off in front, the last one by the induction on the rest
      have hlast : address + 1 + count = address + (count + 1) := by omega
      rw [loadBytes_cons, ih, hlast, loadBytes_cons m address count]
      rfl

theorem length_loadBytes (address count : Nat) :
    (m.loadBytes address count).1.length = count := by
  induction count generalizing m address with
  | zero => rfl
  | succ count ih => exact congrArg Nat.succ (ih _ _)

/-- The last register is set behind all others. -/
theorem setRegisters_append (x : Nat) (values : List UInt8) (value : UInt8) :
    m.setRegisters x (values ++ [value]) =
      (m.setRegisters x values).setV (x + values.length) value := by
  induction values generalizing m x with
  | nil => rfl
  | cons first rest ih =>
      rw [List.cons_append, setRegisters, setRegisters, ih, List.length_cons, Nat.add_assoc,
        Nat.add_comm 1]

/-- Loading does not look at the registers. -/
theorem loadByte_withRegisters (registers : Registers) (address : Nat) :
    (m.withRegisters registers).loadByte address =
      ((m.loadByte address).1, (m.loadByte address).2.withRegisters registers) := by
  simp only [loadByte, withRegisters]
  cases m.memory.load address <;> rfl

theorem registers_loadByte (address : Nat) :
    (m.loadByte address).2.registers = m.registers := by
  rw [footprint_loadByte]

theorem loadByte_setV (x : Nat) (value : UInt8) (address : Nat) :
    (m.setV x value).loadByte address =
      ((m.loadByte address).1, (m.loadByte address).2.setV x value) := by
  rw [setV, loadByte_withRegisters, setV, registers_loadByte]

/-- Registers may be set before a load or after it. -/
theorem loadByte_setRegisters (x : Nat) (values : List UInt8) (address : Nat) :
    (m.setRegisters x values).loadByte address =
      ((m.loadByte address).1, (m.loadByte address).2.setRegisters x values) := by
  induction values generalizing m x with
  | nil => rfl
  | cons value rest ih => rw [setRegisters, ih, loadByte_setV, setRegisters]

/-- A byte stored inside the memory is loaded again. -/
theorem load_storeByte {address : Nat} (h : address < 4096) (value : UInt8) :
    (m.storeByte address value).memory.load address = .ok value := by
  cases hstore : m.memory.store address value with
  | error fault =>
      rw [Memory.store, dif_pos h] at hstore
      cases hstore
  | ok memory =>
      rw [storeByte, hstore]
      exact (Memory.load_store hstore address).trans (if_pos rfl)

theorem registers_storeBytes (address : Nat) (values : List UInt8) :
    (m.storeBytes address values).registers = m.registers := by
  rw [footprint_storeBytes]

theorem registers_loadBytes (address count : Nat) :
    (m.loadBytes address count).2.registers = m.registers := by
  rw [footprint_loadBytes]

end Schip.Machine
