import Reckoner.Number.Binary

/-!
The remainder of a division that is cut off toward zero. It is exact: both numbers are whole
multiples of the smaller of their units, so the remainder of those multiples is the answer, and it
takes the sign of the dividend.
-/

set_option autoImplicit false

namespace Reckoner.Number

/-- No remainder exists for an infinite dividend or a zero divisor. A finite dividend is its own
remainder by an infinite divisor, and the remainder with a NaN is NaN. -/
def remainder? (x y : Float) : Option Float :=
  match Binary.ofFloat x, Binary.ofFloat y with
  | .nan, _ | _, .nan => some Binary.nan.toFloat
  | .infinite _, _ => none
  | .finite .., .infinite _ => some x
  | .finite negative xs xe, .finite _ ys ye =>
    if ys = 0 then none
    else
      let unit := min xe ye
      let dividend := xs * Nat.pow 2 (xe - unit).toNat
      let divisor := ys * Nat.pow 2 (ye - unit).toNat
      some (Binary.finite negative (dividend % divisor) unit).toFloat

end Reckoner.Number
