import Mathlib
import Reckoner.Number.Remainder

/-!
# Where the remainder is undefined

`Binary.ofFloat` takes a double apart as the logical model of doubles does, which names the infinite
ones and those that are no number. So `Number.remainder?` has a result by every divisor other than
zero, unless the dividend is infinite and the divisor is a number.
-/

set_option autoImplicit false

namespace Reckoner

open Float.Model (UnpackedFloat)
open Float.Model.UnpackedFloat (Sign)

namespace Binary

def isNegative : Sign → Bool
  | .negative => true
  | .positive => false

/-- A double of the logical model, with its zeros among the finite ones. -/
def ofUnpacked : UnpackedFloat → Binary
  | .notANumber => .nan
  | .infinity sign => .infinite (isNegative sign)
  | .zero sign => .finite (isNegative sign) 0 (-1074)
  | .finite sign mantissa exponent _ => .finite (isNegative sign) mantissa exponent

section Fields

variable (x : Float)

def pattern : BitVec Float.Model.Format.binary64.numBits := x.toModel.toBits.toBitVec

theorem toNat_unpackMantissa :
    (UnpackedFloat.unpackMantissa (pattern x)).toNat = x.toBits.toNat % Nat.pow 2 52 := by
  simp [UnpackedFloat.unpackMantissa, pattern, Float.toBits]

theorem toNat_unpackExponent :
    (UnpackedFloat.unpackExponent (pattern x)).toNat =
      x.toBits.toNat / Nat.pow 2 52 % Nat.pow 2 11 := by
  simp [UnpackedFloat.unpackExponent, pattern, Float.toBits, Nat.shiftRight_eq_div_pow]

theorem isNegative_unpackSign :
    isNegative (Sign.ofBitVec (UnpackedFloat.unpackSign (pattern x))) =
      (x.toBits.toNat / Nat.pow 2 63 == 1) := by
  have below : x.toBits.toNat < 2 ^ 64 := x.toBits.toBitVec.isLt
  have bit : (UnpackedFloat.unpackSign (pattern x)).toNat = x.toBits.toNat / Nat.pow 2 63 := by
    have single : x.toBits.toNat / Nat.pow 2 63 < 2 :=
      Nat.div_lt_of_lt_mul (Nat.lt_of_lt_of_eq below rfl)
    simpa [UnpackedFloat.unpackSign, pattern, Float.toBits, Nat.shiftRight_eq_div_pow] using single
  unfold Sign.ofBitVec
  split
  · rename_i positive
    rw [positive] at bit
    rw [← bit]
    rfl
  · rename_i negative
    have one : x.toBits.toNat / Nat.pow 2 63 = 1 := by
      have nonzero : (UnpackedFloat.unpackSign (pattern x)).toNat ≠ 0 := by
        intro zero
        exact negative (BitVec.eq_of_toNat_eq zero)
      omega
    rw [one]
    rfl

end Fields

theorem ofFloat_eq_ofUnpacked (x : Float) : ofFloat x = ofUnpacked x.toModel.unpack := by
  have mantissa := toNat_unpackMantissa x
  have exponent := toNat_unpackExponent x
  have negative := isNegative_unpackSign x
  show ofFloat x = ofUnpacked (UnpackedFloat.unpack _ (pattern x))
  unfold ofFloat UnpackedFloat.unpack
  simp only [← mantissa, ← exponent, ← negative]
  have full : (UnpackedFloat.unpackExponent (pattern x)).toNat = Nat.pow 2 11 - 1 ↔
      UnpackedFloat.unpackExponent (pattern x) = -1#_ := by
    rw [← BitVec.toNat_inj]
    rfl
  have clear : (UnpackedFloat.unpackExponent (pattern x)).toNat = 0 ↔
      UnpackedFloat.unpackExponent (pattern x) = 0#_ := by
    rw [← BitVec.toNat_inj]
    rfl
  have whole : (UnpackedFloat.unpackMantissa (pattern x)).toNat = 0 ↔
      UnpackedFloat.unpackMantissa (pattern x) = 0#_ := by
    rw [← BitVec.toNat_inj]
    rfl
  simp only [full, clear, whole]
  by_cases special : UnpackedFloat.unpackExponent (pattern x) = -1#_
  · rw [if_pos special, if_pos special]
    split <;> rfl
  · rw [if_neg special, if_neg special]
    by_cases small : UnpackedFloat.unpackExponent (pattern x) = 0#_
    · rw [if_pos small, if_pos small]
      split
      · rename_i zero
        rw [zero]
        rfl
      · rw [ofUnpacked, small]
        rfl
    · rw [if_neg small, if_neg small, ofUnpacked, BitVec.toNat_append,
        ← Nat.shiftLeft_add_eq_or_of_lt (UnpackedFloat.unpackMantissa (pattern x)).isLt]
      rfl

theorem isInf_iff (x : Float) :
    x.isInf = true ↔ ∃ negative : Bool, ofFloat x = .infinite negative := by
  rw [ofFloat_eq_ofUnpacked]
  show x.toModel.unpack.isInf = true ↔ _
  cases x.toModel.unpack <;> simp [UnpackedFloat.isInf, ofUnpacked]

theorem isNaN_iff (x : Float) : x.isNaN = true ↔ ofFloat x = .nan := by
  rw [ofFloat_eq_ofUnpacked]
  show x.toModel.unpack.isNaN = true ↔ _
  cases x.toModel.unpack <;> simp [UnpackedFloat.isNaN, ofUnpacked]

/-- A double without a significand compares equal to zero, whatever its sign. -/
theorem beq_zero_of_ofFloat {x : Float} {negative : Bool} {exponent : Int}
    (h : ofFloat x = .finite negative 0 exponent) : (x == 0.0) = true := by
  rw [ofFloat_eq_ofUnpacked] at h
  show x.toModel.unpack.beq (0.0 : Float).toModel.unpack = true
  have zero : (0.0 : Float).toModel.unpack = .zero .positive := by rfl
  rw [zero]
  cases unpacked : x.toModel.unpack with
  | zero sign => rfl
  | notANumber | infinity sign => simp [unpacked, ofUnpacked] at h
  | finite sign mantissa exponent positive =>
    rw [unpacked, ofUnpacked, Binary.finite.injEq] at h
    omega

end Binary

namespace Number

/-- By a divisor other than zero, the remainder is undefined just if the dividend is infinite and
the divisor is a number. -/
theorem remainder?_eq_none_iff {x y : Float} (nonzero : (y == 0.0) = false) :
    remainder? x y = none ↔ x.isInf = true ∧ y.isNaN = false := by
  rw [Binary.isInf_iff, ← Bool.not_eq_true, Binary.isNaN_iff]
  unfold remainder?
  cases dividend : Binary.ofFloat x <;> cases divisor : Binary.ofFloat y
  all_goals simp
  rename_i significand _
  rintro rfl
  rw [Binary.beq_zero_of_ofFloat divisor] at nonzero
  cases nonzero

end Number

end Reckoner
