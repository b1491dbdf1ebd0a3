/-!
Decimal numerals: digits times a power of ten. Reading a numeral keeps every digit; the one
rounding, to the nearest double with ties to even, happens in `Decimal.toFloat`.
-/

set_option autoImplicit false

namespace Reckoner

/-- The number `coefficient · 10 ^ exponent`. -/
structure Decimal where
  coefficient : Nat
  exponent : Int
  deriving DecidableEq, Repr

namespace Decimal

def toFloat (d : Decimal) : Float :=
  Float.ofScientific d.coefficient (d.exponent < 0) d.exponent.natAbs

def digitValue (c : Char) : Nat := c.toNat - '0'.toNat

def digitsValue (digits : List Char) : Nat :=
  digits.foldl (fun value c => 10 * value + digitValue c) 0

/-- Digits with at most one point among them, which may be the last character. -/
def ofNumeral (numeral : List Char) : Decimal :=
  let whole := numeral.takeWhile Char.isDigit
  let fraction := (numeral.dropWhile Char.isDigit).drop 1
  ⟨digitsValue (whole ++ fraction), -(fraction.length : Int)⟩

def digits (d : Decimal) : List Char := Nat.toDigits 10 d.coefficient

/-- The place of the decimal point, counted from before the first digit. -/
def point (d : Decimal) : Int := d.digits.length + d.exponent

def significantDigits (d : Decimal) : List Char :=
  (d.digits.reverse.dropWhile (· == '0')).reverse

end Decimal

end Reckoner
