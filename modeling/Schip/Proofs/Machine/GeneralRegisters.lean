import Schip.Machine

/-!
# Writes to general registers

What is left of a machine when only general registers are written: `KeepsBut` lists those that may
have changed, and all else is as before. One write changes one register (`keepsBut_setV`), writes in
a row change a row (`keepsBut_setRegisters`, `v_setRegisters`).
-/

set_option autoImplicit false

namespace Schip

namespace Registers

theorem v_setV_self (r : Registers) (x : Nat) (value : UInt8) : (r.setV x value).v x = value := by
  rw [v_setV, if_pos rfl]

/-- Two numbers below sixteen that differ mean different registers. -/
theorem v_setV_of_ne (r : Registers) {x y : Nat} (hx : x < 16) (hy : y < 16) (h : y ≠ x)
    (value : UInt8) : (r.setV x value).v y = r.v y := by
  rw [v_setV, if_neg]
  intro hselect
  have hmod : x % 16 = y % 16 := congrArg Fin.val hselect
  rw [Nat.mod_eq_of_lt hx, Nat.mod_eq_of_lt hy] at hmod
  exact h hmod.symm

end Registers

namespace Machine

/-- Nothing but general registers differs, and of those only some that `written` lists. -/
structure KeepsBut (written : List Nat) (before after : Machine) : Prop where
  others : ∀ r : Fin 16, (r : Nat) ∉ written → after.registers.v r = before.registers.v r
  rest : after = before.withRegisters
    { before.registers with general := after.registers.general }

theorem KeepsBut.refl (m : Machine) : KeepsBut [] m m where
  others := fun _ _ => rfl
  rest := rfl

/-- Two steps in a row write the registers that either of them writes. -/
theorem KeepsBut.trans {m m' m'' : Machine} {written written' : List Nat}
    (h : KeepsBut written m m') (h' : KeepsBut written' m' m'') :
    KeepsBut (written ++ written') m m'' where
  others := by
    intro r hr
    rw [List.mem_append, not_or] at hr
    rw [h'.others r hr.2, h.others r hr.1]
  rest := by
    rw [h'.rest, h.rest]
    rfl

variable (m : Machine)

/-- Setting a register writes that one. -/
theorem keepsBut_setV {x : Nat} (hx : x < 16) (value : UInt8) :
    KeepsBut [x] m (m.setV x value) where
  others := by
    intro r hr
    exact m.registers.v_setV_of_ne hx r.isLt (List.ne_of_not_mem_cons hr) value
  rest := rfl

/-- Setting registers in a row writes those. -/
theorem keepsBut_setRegisters {x : Nat} {values : List UInt8} (h : x + values.length ≤ 16) :
    KeepsBut (List.range' x values.length) m (m.setRegisters x values) := by
  induction values generalizing m x with
  | nil => exact KeepsBut.refl m
  | cons value rest ih =>
      rw [List.length_cons] at h
      have hx : x < 16 := by omega
      have hrest : x + 1 + rest.length ≤ 16 := by omega
      rw [List.length_cons, List.range'_succ]
      exact (m.keepsBut_setV hx value).trans (ih (m.setV x value) hrest)

/-- Registers set in a row have their values. -/
theorem v_setRegisters {x : Nat} {values : List UInt8} (h : x + values.length ≤ 16) {k : Nat}
    (hk : k < values.length) : (m.setRegisters x values).registers.v (x + k) = values[k] := by
  induction values generalizing m x k with
  | nil => exact absurd hk (Nat.not_lt_zero k)
  | cons value rest ih =>
      rw [List.length_cons] at h hk
      have hrest : x + 1 + rest.length ≤ 16 := by omega
      cases k with
      | zero =>
          -- the registers written later have higher numbers
          have hx : x < 16 := by omega
          have hlater : x ∉ List.range' (x + 1) rest.length := by
            intro hmem
            have hle := (List.mem_range'_1.1 hmem).1
            omega
          have hkept := (keepsBut_setRegisters (m.setV x value) hrest).others ⟨x, hx⟩ hlater
          exact hkept.trans (m.registers.v_setV_self x value)
      | succ k =>
          have hnext := ih (m.setV x value) hrest (Nat.lt_of_succ_lt_succ hk)
          rw [Nat.add_assoc, Nat.add_comm 1] at hnext
          exact hnext

end Machine

end Schip
