/-!
Double-precision numbers taken apart: a finite one is `± significand · 2 ^ exponent`, with a
significand below `2 ^ 53` and an exponent of at least `-1074`. `Binary.ofFloat` reads the bit
pattern, `Binary.toFloat` writes it; both zeros are kept apart.
-/

set_option autoImplicit false

namespace Reckoner

inductive Binary where
  | nan
  | infinite (negative : Bool)
  | finite (negative : Bool) (significand : Nat) (exponent : Int)
  deriving DecidableEq, Repr

namespace Binary

def ofFloat (x : Float) : Binary :=
  let bits : Nat := x.toBits.toNat
  let negative := bits / Nat.pow 2 63 == 1
  let field : Nat := bits / Nat.pow 2 52 % Nat.pow 2 11
  let fraction : Nat := bits % Nat.pow 2 52
  if field = Nat.pow 2 11 - 1 then
    if fraction = 0 then .infinite negative else .nan
  else if field = 0 then .finite negative fraction (-1074)
  else .finite negative (Nat.pow 2 52 + fraction) ((field : Int) - 1075)

/-- The bit pattern of `significand · 2 ^ exponent` without its sign. Where the leading bit is too
low for a normal number, the pattern counts units of `2 ^ -1074`. -/
def magnitudeBits (significand : Nat) (exponent : Int) : Nat :=
  let leading := significand.log2
  let place := exponent + leading
  if significand = 0 then 0
  else if place < -1022 then significand * Nat.pow 2 (exponent + 1074).toNat
  else (place + 1022).toNat * Nat.pow 2 52 + significand * Nat.pow 2 (52 - leading)

def signBit (negative : Bool) : Nat := if negative then Nat.pow 2 63 else 0

def toFloat : Binary → Float
  | .nan => Float.ofBits 0x7ff8000000000000
  | .infinite negative => Float.ofBits (signBit negative + 0x7ff0000000000000).toUInt64
  | .finite negative significand exponent =>
    Float.ofBits (signBit negative + magnitudeBits significand exponent).toUInt64

end Binary

end Reckoner
