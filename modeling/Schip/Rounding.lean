/-!
# Rounding

Rounding of exact numbers to the nearest of those that can be held; a value halfway between two goes
to the even one. `toSignificant_of_lt` says that a number that can be held stays as it is.
-/

set_option autoImplicit false

namespace Schip.Rounding

/-- Quotient rounded to the nearest whole number, a half to the even neighbour. -/
def roundDiv (numerator denominator : Nat) : Nat :=
  let quotient := numerator / denominator
  let rest := numerator % denominator
  if 2 * rest < denominator then quotient
  else if denominator < 2 * rest then quotient + 1
  else quotient + quotient % 2

/-- Weight of the last of the first `digits` binary digits of a number. -/
def lastUnit (digits n : Nat) : Nat := 1 <<< (n.log2 + 1 - digits)

/-- Number nearest to a given one among those of `digits` significant binary digits. -/
def toSignificant (digits n : Nat) : Nat :=
  roundDiv n (lastUnit digits n) * lastUnit digits n

theorem roundDiv_one (n : Nat) : roundDiv n 1 = n := by
  simp [roundDiv, Nat.mod_one]

theorem zero_roundDiv {denominator : Nat} (h : 0 < denominator) : roundDiv 0 denominator = 0 := by
  simp [roundDiv, h]

/-- A number that has no more digits than are kept is kept as it is. -/
theorem toSignificant_of_lt {digits n : Nat} (h : n < 1 <<< digits) :
    toSignificant digits n = n := by
  rw [Nat.one_shiftLeft] at h
  by_cases hn : n = 0
  · subst hn
    simp [toSignificant, lastUnit, Nat.one_shiftLeft, zero_roundDiv (Nat.two_pow_pos _)]
  · have hlog : n.log2 < digits := (Nat.log2_lt hn).2 h
    have hunit : lastUnit digits n = 1 := by
      rw [lastUnit, Nat.sub_eq_zero_of_le hlog, Nat.shiftLeft_zero]
    rw [toSignificant, hunit, roundDiv_one, Nat.mul_one]

end Schip.Rounding
