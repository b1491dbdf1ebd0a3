import Reckoner.Number.Binary
import Reckoner.Number.Decimal

/-!
The shortest decimal that reads back as a given double: the fewest digits, and of the numerals
with so few digits the one nearest to the number itself, the even one on a tie.

The numerals of a given length near a number form a grid. If any point of the grid reads back as
the number then so does one of the two next to it, so no others need to be tried.
-/

set_option autoImplicit false

namespace Reckoner.Shortest

/-- Numerator and denominator of `significand · 2 ^ exponent · 10 ^ power`. -/
def scaled (significand : Nat) (exponent power : Int) : Nat × Nat :=
  (significand * Nat.pow 2 exponent.toNat * Nat.pow 10 power.toNat,
   Nat.pow 2 (-exponent).toNat * Nat.pow 10 (-power).toNat)

/-- The least `k` with `significand · 2 ^ exponent < 10 ^ k`: `10 ^ 342` makes a positive double
exceed one, and the digits before the point are then counted. -/
def point (significand : Nat) (exponent : Int) : Int :=
  let (num, den) := scaled significand exponent 342
  ((Nat.toDigits 10 (num / den)).length : Int) - 342

/-- The numeral of `count` digits that reads back as `x`, if there is one; `place` is the point
of the number. -/
def ofLength? (x : Float) (significand : Nat) (exponent place : Int) (count : Nat) :
    Option Decimal :=
  let unit := place - count
  let (num, den) := scaled significand exponent (-unit)
  let below : Decimal := ⟨num / den, unit⟩
  let above : Decimal := ⟨num / den + 1, unit⟩
  match below.toFloat == x, above.toFloat == x with
  | true, true =>
    let rest := 2 * (num % den)
    some (if rest < den ∨ rest = den ∧ num / den % 2 = 0 then below else above)
  | true, false => some below
  | false, true => some above
  | false, false => none

def exact (significand : Nat) (exponent : Int) : Decimal :=
  if exponent < 0 then ⟨significand * Nat.pow 5 exponent.natAbs, exponent⟩
  else ⟨significand * Nat.pow 2 exponent.natAbs, 0⟩

/-- Seventeen digits always suffice. -/
def decimal (significand : Nat) (exponent : Int) : Decimal :=
  let x := (Binary.finite false significand exponent).toFloat
  let place := point significand exponent
  ((List.range' 1 17).findSome? (ofLength? x significand exponent place)).getD
    (exact significand exponent)

end Reckoner.Shortest
