import Schip.Proofs.Machine.GeneralRegisters

/-!
# Arithmetic and the flag

Arithmetic on registers is modulo 256, and what does not fit goes to the flag, which is a general
register as any other. So it matters which of the two is written last. An addition writes the flag
last, and the carry stays even if the sum was meant for the flag (`flagStays_setThenFlag`).
Subtractions and shifts write the flag first, and the result stays (`resultStays_flagThenSet`).
Copies, bitwise operations and the addition of a byte write no flag (`resultOnly_setV`).

Both operands are read before either is written, so they may be the same register, or the flag.
`arithmetic_exact` says all of this of every instruction, in natural numbers.
-/

set_option autoImplicit false

namespace Schip

/-! ## Bytes as numbers -/

/-- The carry of a sum of two bytes. -/
theorem toNat_carry (a b : UInt8) :
    (decide (256 ≤ a.toNat + b.toNat)).toNat = (a.toNat + b.toNat) / 256 := by
  have ha := a.toNat_lt
  have hb := b.toNat_lt
  by_cases hcarry : 256 ≤ a.toNat + b.toNat
  · rw [decide_eq_true hcarry, Bool.toNat_true]
    omega
  · rw [decide_eq_false hcarry, Bool.toNat_false]
    omega

/-- The flag of a difference says that nothing was borrowed. -/
theorem toNat_noBorrow (a b : UInt8) :
    (if b ≤ a then 1 else 0 : UInt8).toNat = if b.toNat ≤ a.toNat then 1 else 0 := by
  by_cases hle : b ≤ a
  · rw [if_pos hle, if_pos (UInt8.le_iff_toNat_le.1 hle)]
    rfl
  · rw [if_neg hle, if_neg (fun h => hle (UInt8.le_iff_toNat_le.2 h))]
    rfl

/-- The bit that a shift to the right loses. -/
theorem toNat_and_one (a : UInt8) : (a &&& 1).toNat = a.toNat % 2 := by
  rw [UInt8.toNat_and]
  exact Nat.and_one_is_mod a.toNat

theorem toNat_half (a : UInt8) : (a >>> 1).toNat = a.toNat / 2 := by
  rw [UInt8.toNat_shiftRight]
  rfl

/-- The bit that a shift to the left loses. -/
theorem toNat_top (a : UInt8) : (a >>> 7).toNat = a.toNat / 128 := by
  rw [UInt8.toNat_shiftRight, Nat.shiftRight_eq_div_pow]
  rfl

theorem toNat_double (a : UInt8) : (a <<< 1).toNat = 2 * a.toNat % 256 := by
  rw [UInt8.toNat_shiftLeft, Nat.shiftLeft_eq, Nat.mul_comm]
  rfl

namespace Machine

/-- A register has the result, and nothing else changes. -/
structure ResultOnly (before after : Machine) (x : Fin 16) (result : Nat) : Prop where
  result : (after.registers.v x).toNat = result
  keeps : KeepsBut [(x : Nat)] before after

/-- A register has the result, unless it is the flag; the flag has its value in any case. -/
structure FlagStays (before after : Machine) (x : Fin 16) (result flag : Nat) : Prop where
  flag : (after.registers.v Registers.flag).toNat = flag
  result : (x : Nat) ≠ Registers.flag → (after.registers.v x).toNat = result
  keeps : KeepsBut [(x : Nat), Registers.flag] before after

/-- A register has the result in any case; the flag has its value, unless it is that register. -/
structure ResultStays (before after : Machine) (x : Fin 16) (result flag : Nat) : Prop where
  result : (after.registers.v x).toNat = result
  flag : (x : Nat) ≠ Registers.flag → (after.registers.v Registers.flag).toNat = flag
  keeps : KeepsBut [Registers.flag, (x : Nat)] before after

variable (m : Machine)

theorem flag_lt : Registers.flag < 16 := by decide

/-! ## The three orders -/

/-- A register that is set has its value, and no other register changes. -/
theorem resultOnly_setV (x : Fin 16) (value : UInt8) :
    ResultOnly m (m.setV x value) x value.toNat where
  result := congrArg UInt8.toNat (m.registers.v_setV_self x value)
  keeps := m.keepsBut_setV x.isLt value

/-- Where the flag is written last, its value stays also if both are one register. -/
theorem flagStays_setThenFlag (x : Fin 16) (value : UInt8) (carry : Bool) :
    FlagStays m (m.setThenFlag x value carry) x value.toNat carry.toNat where
  flag := by
    rw [setThenFlag, setV, withRegisters, Registers.v_setV_self]
    cases carry <;> rfl
  result := by
    intro hx
    -- the flag is written over no register but itself
    have hkept := (m.setV x value).registers.v_setV_of_ne flag_lt x.isLt hx (if carry then 1 else 0)
    exact congrArg UInt8.toNat (hkept.trans (m.registers.v_setV_self x value))
  keeps := (m.keepsBut_setV x.isLt value).trans (keepsBut_setV _ flag_lt _)

/-- Where the result is written last, it stays also if both are one register. -/
theorem resultStays_flagThenSet (x : Fin 16) (flag value : UInt8) :
    ResultStays m (m.flagThenSet flag value x) x value.toNat flag.toNat where
  result := congrArg UInt8.toNat (Registers.v_setV_self _ x value)
  flag := by
    intro hx
    have hkept := (m.setV Registers.flag flag).registers.v_setV_of_ne x.isLt flag_lt hx.symm value
    exact congrArg UInt8.toNat (hkept.trans (m.registers.v_setV_self Registers.flag flag))
  keeps := (m.keepsBut_setV flag_lt flag).trans (keepsBut_setV _ x.isLt value)

/-! ## Instructions -/

/-- What arithmetic leaves, for all registers, equal or not, the flag among them. Everything but the
register that is named and the flag stays as it is. -/
theorem arithmetic_exact (x y : Fin 16) (kk : UInt8) :
    let a := (m.registers.v x).toNat
    let b := (m.registers.v y).toNat
    let after (instruction : Instruction) : Machine := (m.execute instruction).2
    FlagStays m (after (.addReg x y)) x ((a + b) % 256) ((a + b) / 256) ∧
    ResultStays m (after (.sub x y)) x ((256 - b + a) % 256) (if b ≤ a then 1 else 0) ∧
    ResultStays m (after (.reverseSub x y)) x ((256 - a + b) % 256) (if a ≤ b then 1 else 0) ∧
    ResultStays m (after (.shiftRight x)) x (a / 2) (a % 2) ∧
    ResultStays m (after (.shiftLeft x)) x (2 * a % 256) (a / 128) ∧
    ResultOnly m (after (.or x y)) x (a ||| b) ∧
    ResultOnly m (after (.and x y)) x (a &&& b) ∧
    ResultOnly m (after (.xor x y)) x (a ^^^ b) ∧
    ResultOnly m (after (.move x y)) x b ∧
    ResultOnly m (after (.loadImm x kk)) x kk.toNat ∧
    ResultOnly m (after (.addImm x kk)) x ((a + kk.toNat) % 256) := by
  intro a b after
  refine ⟨?add, ?sub, ?reverseSub, ?shiftRight, ?shiftLeft, ?or, ?and, ?xor, ?move, ?load, ?addImm⟩
  case add =>
    have h := m.flagStays_setThenFlag x (m.registers.v x + m.registers.v y)
      (256 ≤ (m.registers.v x).toNat + (m.registers.v y).toNat)
    rwa [UInt8.toNat_add, toNat_carry] at h
  case sub =>
    have h := m.resultStays_flagThenSet x (if m.registers.v y ≤ m.registers.v x then 1 else 0)
      (m.registers.v x - m.registers.v y)
    rwa [UInt8.toNat_sub, toNat_noBorrow] at h
  case reverseSub =>
    have h := m.resultStays_flagThenSet x (if m.registers.v x ≤ m.registers.v y then 1 else 0)
      (m.registers.v y - m.registers.v x)
    rwa [UInt8.toNat_sub, toNat_noBorrow] at h
  case shiftRight =>
    have h := m.resultStays_flagThenSet x (m.registers.v x &&& 1) (m.registers.v x >>> 1)
    rwa [toNat_half, toNat_and_one] at h
  case shiftLeft =>
    have h := m.resultStays_flagThenSet x (m.registers.v x >>> 7) (m.registers.v x <<< 1)
    rwa [toNat_double, toNat_top] at h
  case or =>
    have h := m.resultOnly_setV x (m.registers.v x ||| m.registers.v y)
    rwa [UInt8.toNat_or] at h
  case and =>
    have h := m.resultOnly_setV x (m.registers.v x &&& m.registers.v y)
    rwa [UInt8.toNat_and] at h
  case xor =>
    have h := m.resultOnly_setV x (m.registers.v x ^^^ m.registers.v y)
    rwa [UInt8.toNat_xor] at h
  case move => exact m.resultOnly_setV x (m.registers.v y)
  case load => exact m.resultOnly_setV x kk
  case addImm =>
    have h := m.resultOnly_setV x (m.registers.v x + kk)
    rwa [UInt8.toNat_add] at h

end Machine

end Schip
