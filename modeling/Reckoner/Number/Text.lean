import Reckoner.Number.Shortest

/-!
Numbers as text. A number is written with the fewest digits that read back as it: positionally if
its first digit stands at most sixteen places before the point and at most four after it, with an
exponent of at least two digits otherwise. The full form marks a whole number by `.0`; the brief
form leaves the mark out.
-/

set_option autoImplicit false

namespace Reckoner.Number

def zeros (n : Int) : List Char := List.replicate n.toNat '0'

/-- Digits with the point after the first `point` of them; `wholeMark` ends a whole number. -/
def positional (wholeMark digits : List Char) (point : Int) : List Char :=
  if point ≤ 0 then '0' :: '.' :: zeros (-point) ++ digits
  else if (digits.length : Int) ≤ point then digits ++ zeros (point - digits.length) ++ wholeMark
  else digits.take point.toNat ++ '.' :: digits.drop point.toNat

def exponentText (exponent : Int) : List Char :=
  let digits := Nat.toDigits 10 exponent.natAbs
  (if exponent < 0 then '-' else '+') :: zeros (2 - digits.length) ++ digits

/-- One digit before the point, which stands only if a second digit follows. -/
def exponential (digits : List Char) (point : Int) : List Char :=
  let mantissa :=
    match digits with
    | first :: second :: rest => first :: '.' :: second :: rest
    | short => short
  mantissa ++ 'e' :: exponentText (point - 1)

def isPositional (point : Int) : Bool := -4 < point && point ≤ 16

def decimalChars (wholeMark : List Char) (d : Decimal) : List Char :=
  if isPositional d.point then positional wholeMark d.significantDigits d.point
  else exponential d.significantDigits d.point

def magnitudeChars (wholeMark : List Char) (significand : Nat) (exponent : Int) : List Char :=
  if significand = 0 then '0' :: wholeMark
  else decimalChars wholeMark (Shortest.decimal significand exponent)

def signChars (negative : Bool) : List Char := if negative then ['-'] else []

def chars (wholeMark : List Char) (x : Float) : List Char :=
  match Binary.ofFloat x with
  | .nan => ['n', 'a', 'n']
  | .infinite negative => signChars negative ++ ['i', 'n', 'f']
  | .finite negative significand exponent =>
    signChars negative ++ magnitudeChars wholeMark significand exponent

/-- The full form: `9.0`, `0.5`, `1e+16`. -/
def text (x : Float) : String := String.ofList (chars ['.', '0'] x)

/-- The brief form: `9`, `0.5`, `1e+16`. -/
def brief (x : Float) : String := String.ofList (chars [] x)

/-- Reads an exponent such as `e+16`, or its absence. -/
def readExponent? : List Char → Option Int
  | [] => some 0
  | mark :: rest =>
    if mark ≠ 'e' then none
    else
      let (negative, digits) :=
        match rest with
        | '-' :: digits => (true, digits)
        | '+' :: digits => (false, digits)
        | digits => (false, digits)
      if digits ≠ [] ∧ digits.all Char.isDigit then
        let value : Int := Decimal.digitsValue digits
        some (if negative then -value else value)
      else none

/-- Reads digits with at most one point among them, then an exponent. -/
def readDecimal? (written : List Char) : Option Decimal :=
  let numeral := written.takeWhile (fun c => c.isDigit || c == '.')
  let digits := numeral.filter Char.isDigit
  if digits ≠ [] ∧ numeral.length ≤ digits.length + 1 then
    (readExponent? (written.dropWhile (fun c => c.isDigit || c == '.'))).map fun exponent =>
      let d := Decimal.ofNumeral numeral
      { d with exponent := d.exponent + exponent }
  else none

def readMagnitude? : List Char → Option Float
  | ['i', 'n', 'f'] => some (Binary.infinite false).toFloat
  | ['n', 'a', 'n'] => some Binary.nan.toFloat
  | written => (readDecimal? written).map Decimal.toFloat

/-- Reads back what `text` and `brief` write, and other decimal numerals beside. -/
def ofText? (written : String) : Option Float :=
  match written.toList with
  | '-' :: magnitude => (readMagnitude? magnitude).map (- ·)
  | magnitude => readMagnitude? magnitude

end Reckoner.Number
