/-!
# Numerals

Positional numerals of natural numbers as text, and the reading of decimal numerals. The digits of
a number are a list of characters, most significant first, so that a numeral can be read back digit
by digit (`value_digits`); `hex`, `hexPadded` and `decimal` are the three spellings that the rest of
the library writes.
-/

set_option autoImplicit false

namespace Schip.Numeral

/-- Digit character of a value below sixteen, in lower case. -/
def digit (value : Nat) : Char :=
  if value < 10 then Char.ofNat (48 + value) else Char.ofNat (87 + value)

/-- Digits of `n` in a base, most significant first. Zero has one digit. A base below two has no
positional numerals; the whole number then stands as a single digit. -/
def digits (base n : Nat) : List Char :=
  if n < base ∨ base < 2 then
    [digit n]
  else
    digits base (n / base) ++ [digit (n % base)]
termination_by n
decreasing_by exact Nat.div_lt_self (by omega) (by omega)

/-- Numeral with zeros in front up to the width `width`; a longer numeral is left as it is. -/
def padded (base width n : Nat) : List Char :=
  List.replicate (width - (digits base n).length) '0' ++ digits base n

/-- Lower-case hexadecimal numeral. -/
def hex (n : Nat) : String :=
  String.ofList (digits 16 n)

/-- Lower-case hexadecimal numeral of at least `width` digits. -/
def hexPadded (width n : Nat) : String :=
  String.ofList (padded 16 width n)

/-- Decimal numeral. -/
def decimal (n : Nat) : String :=
  String.ofList (digits 10 n)

/-- Value of a decimal digit character. -/
def decimalDigit? (c : Char) : Option Nat :=
  if '0' ≤ c ∧ c ≤ '9' then some (c.toNat - 48) else none

/-- Value of a list of decimal digits read after the digits of `value`; refused at the first
character that is no digit. -/
def readDigits? (value : Nat) : List Char → Option Nat
  | [] => some value
  | c :: rest =>
    match decimalDigit? c with
    | some d => readDigits? (value * 10 + d) rest
    | none => none

/-- Natural number written in decimal digits, with an optional plus sign in front. At least one
digit is required, and leading zeros are allowed. -/
def readDecimal? (text : List Char) : Option Nat :=
  match text with
  | '+' :: c :: rest => readDigits? 0 (c :: rest)
  | c :: rest => readDigits? 0 (c :: rest)
  | [] => none

/-- Decimal number below two to the power sixty-four. -/
def readWord64? (text : List Char) : Option UInt64 :=
  match readDecimal? text with
  | some n => if n < 1 <<< 64 then some (UInt64.ofNat n) else none
  | none => none

/-- Digits up to nine follow the character 0, the others the character a. -/
theorem digit_toNat (value : Nat) (h : value < 16) :
    (digit value).toNat = if value < 10 then 48 + value else 87 + value := by
  have table : ∀ v : Fin 16,
      (digit v.val).toNat = if v.val < 10 then 48 + v.val else 87 + v.val := by decide
  exact table ⟨value, h⟩

/-- Value of a digit character. -/
def digitValue (c : Char) : Nat := if c.toNat < 58 then c.toNat - 48 else c.toNat - 87

/-- A digit has the value that it was written for. -/
theorem digitValue_digit (value : Nat) (h : value < 16) : digitValue (digit value) = value := by
  unfold digitValue
  rw [digit_toNat value h]
  split <;> split at * <;> omega

/-- Value of digits, most significant first. -/
def value (base : Nat) (text : List Char) : Nat :=
  text.foldl (fun n c => n * base + digitValue c) 0

/-- A numeral is read back to its number. -/
theorem value_digits {base : Nat} (hl : 2 ≤ base) (hu : base ≤ 16) (n : Nat) :
    value base (digits base n) = n := by
  induction n using Nat.strongRecOn with
  | _ n ih =>
    rw [digits]
    split
    · rename_i h
      have hn : n < 16 := by omega
      simp [value, digitValue_digit n hn]
    · rename_i h
      have hlt : n / base < n := Nat.div_lt_self (by omega) (by omega)
      have hr : n % base < 16 := by have := Nat.mod_lt n (show 0 < base by omega); omega
      have := ih _ hlt
      simp only [value] at this
      simp only [value, List.foldl_append, List.foldl_cons, List.foldl_nil, this,
        digitValue_digit _ hr]
      rw [Nat.mul_comm]
      exact Nat.div_add_mod n base

/-- A numeral is made of digits. -/
theorem mem_digits {base : Nat} (hl : 2 ≤ base) (hu : base ≤ 16) (n : Nat) {c : Char}
    (hc : c ∈ digits base n) : ∃ v < 16, c = digit v := by
  induction n using Nat.strongRecOn with
  | _ n ih =>
    rw [digits] at hc
    split at hc
    · rename_i hsmall
      exact ⟨n, by omega, List.mem_singleton.mp hc⟩
    · rename_i hlarge
      rcases List.mem_append.mp hc with hc | hc
      · exact ih _ (Nat.div_lt_self (by omega) (by omega)) hc
      · have hrest : n % base < base := Nat.mod_lt n (by omega)
        exact ⟨n % base, by omega, List.mem_singleton.mp hc⟩

theorem digits_ne_nil (base n : Nat) : digits base n ≠ [] := by
  rw [digits]
  split <;> simp

/-- A padded numeral is made of digits. -/
theorem mem_padded {base : Nat} (hl : 2 ≤ base) (hu : base ≤ 16) (width n : Nat) {c : Char}
    (hc : c ∈ padded base width n) : ∃ v < 16, c = digit v := by
  rcases List.mem_append.mp hc with hc | hc
  · exact ⟨0, by omega, (List.mem_replicate.mp hc).2⟩
  · exact mem_digits hl hu n hc

theorem padded_ne_nil (base width n : Nat) : padded base width n ≠ [] := by
  simp [padded, digits_ne_nil]

/-- Zeros in front do not count. -/
theorem value_zeros_append (base k : Nat) (text : List Char) :
    value base (List.replicate k '0' ++ text) = value base text := by
  induction k with
  | zero => rfl
  | succ k ih =>
    have hzero : 0 * base + digitValue '0' = 0 := by
      rw [Nat.zero_mul, Nat.zero_add]
      rfl
    simp only [value, List.replicate_succ, List.cons_append, List.foldl_cons, hzero]
    exact ih

theorem value_padded {base : Nat} (hl : 2 ≤ base) (hu : base ≤ 16) (width n : Nat) :
    value base (padded base width n) = n := by
  rw [padded, value_zeros_append, value_digits hl hu]

end Schip.Numeral
