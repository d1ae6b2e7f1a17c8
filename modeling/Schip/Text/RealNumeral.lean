import Schip.Text.Numeral

/-!
# Real numerals

Reading of real numbers: an optional sign, decimal digits with at most one point, and an optional
exponent that has digits of its own; or one of the words `inf`, `infinity` and `nan` in any case.
At least one digit has to stand before or after the point.
-/

set_option autoImplicit false

namespace Schip

/-- What a numeral means. -/
inductive RealNumeral where
  /-- The number `significand · 10 ^ exponent`, negated if so marked. -/
  | finite (negative : Bool) (significand : Nat) (exponent : Int)
  | infinite (negative : Bool)
  | nan
  deriving DecidableEq, Repr

namespace RealNumeral

/-- Sign in front of a text, and the text behind it. -/
def takeSign : List Char → Bool × List Char
  | '-' :: rest => (true, rest)
  | '+' :: rest => (false, rest)
  | text => (false, text)

/-- Decimal digits in front of a text, and the text behind them. -/
def takeDigits (text : List Char) : List Char × List Char :=
  (text.takeWhile Char.isDigit, text.dropWhile Char.isDigit)

/-- Point and the digits behind it, if there is a point. -/
def takeFraction : List Char → List Char × List Char
  | '.' :: rest => takeDigits rest
  | text => ([], text)

/-- Exponent that takes up a whole text: nothing, or the letter `e` with an optional sign and
digits. -/
def readExponent? (text : List Char) : Option Int :=
  match text with
  | [] => some 0
  | mark :: rest =>
    if mark = 'e' ∨ mark = 'E' then
      match takeSign rest with
      | (negative, c :: digits) =>
        (Numeral.readDigits? 0 (c :: digits)).map fun value =>
          if negative then -Int.ofNat value else Int.ofNat value
      | (_, []) => none
    else none

/-- Unsigned number in digits. -/
def readFinite? (negative : Bool) (text : List Char) : Option RealNumeral :=
  match takeDigits text with
  | (whole, rest) =>
    match takeFraction rest with
    | (fraction, rest') =>
      if whole.isEmpty && fraction.isEmpty then none
      else
        match Numeral.readDigits? 0 (whole ++ fraction), readExponent? rest' with
        | some significand, some exponent =>
          some (finite negative significand (exponent - fraction.length))
        | _, _ => none

/-- Word for a value that is no number. -/
def readWord? (negative : Bool) (text : List Char) : Option RealNumeral :=
  match String.ofList (text.map Char.toLower) with
  | "nan" => some nan
  | "inf" => some (infinite negative)
  | "infinity" => some (infinite negative)
  | _ => none

/-- Meaning of a text. -/
def read? (text : String) : Option RealNumeral :=
  match takeSign text.toList with
  | (negative, unsigned) =>
    match readFinite? negative unsigned with
    | some numeral => some numeral
    | none => readWord? negative unsigned

/-- Nearest floating-point number. Magnitudes far outside its range are decided by the number of
digits alone. -/
def toFloat : RealNumeral → Float
  | nan => 0.0 / 0.0
  | infinite negative => if negative then -1.0 / 0.0 else 1.0 / 0.0
  | finite negative significand exponent =>
    let magnitude := Int.ofNat (Numeral.digits 10 significand).length + exponent
    let value :=
      if significand = 0 ∨ magnitude < -400 then 0.0
      else if 400 < magnitude then 1.0 / 0.0
      else Float.ofScientific significand (exponent < 0) exponent.natAbs
    if negative then -value else value

end RealNumeral

end Schip
