import Reckoner.Proofs.Number.Nearest
import Reckoner.Proofs.Number.Remainder

/-!
# Rounding in the logical model of doubles

The model cuts a number off to a whole multiple of its unit and keeps in two residual bits how the rest
compares with zero and with one half. Shifting right keeps what these bits say, so that rounding by
them gives a nearest multiple, and packing gives the double of that multiple.
-/

set_option autoImplicit false

namespace Reckoner

open Float.Model (UnpackedFloat Format totalExponent)
open Float.Model.UnpackedFloat

namespace Rounding

/-- What is known of a number that is cut off to a whole one. -/
def Describes (whole : ℕ) (y : ℚ) : Accuracy → Prop
  | .exact => y = whole
  | .inexact .lt => whole < y ∧ y < whole + 1 / 2
  | .inexact .eq => y = whole + 1 / 2
  | .inexact .gt => whole + 1 / 2 < y ∧ y < whole + 1

variable {m : ℕ} {e : ℤ} {y : ℚ} {accuracy : Accuracy}

theorem Describes.le (h : Describes m y accuracy) : (m : ℚ) ≤ y := by
  unfold Describes at h
  split at h <;> linarith

theorem Describes.lt (h : Describes m y accuracy) : y < m + 1 := by
  unfold Describes at h
  split at h <;> linarith

/-- Rounding goes to a nearest whole number, and to an even one from the middle. -/
theorem Describes.near (h : Describes m y accuracy) :
    |(accuracy.roundToNearestEven m : ℚ) - y| ≤ 1 / 2 ∧
      (|(accuracy.roundToNearestEven m : ℚ) - y| = 1 / 2 →
        Even (accuracy.roundToNearestEven m)) := by
  unfold Describes at h
  split at h
  · simp [Accuracy.roundToNearestEven, h]
  · have distance : |(m : ℚ) - y| < 1 / 2 := by
      rw [abs_lt]
      constructor <;> linarith
    exact ⟨distance.le, fun tie => absurd tie distance.ne⟩
  · have even : Even (m + m % 2) := by
      rw [Nat.even_iff]
      omega
    refine ⟨?_, fun _ => even⟩
    have parity : m % 2 = 0 ∨ m % 2 = 1 := by omega
    rcases parity with zero | one
    · simp only [Accuracy.roundToNearestEven, zero, h]
      norm_num
    · simp only [Accuracy.roundToNearestEven, one, h]
      push_cast
      norm_num
  · have distance : |((m + 1 : ℕ) : ℚ) - y| < 1 / 2 := by
      push_cast
      rw [abs_lt]
      constructor <;> linarith
    exact ⟨distance.le, fun tie => absurd tie distance.ne⟩

theorem le_roundToNearestEven (accuracy : Accuracy) (m : ℕ) :
    m ≤ accuracy.roundToNearestEven m ∧ accuracy.roundToNearestEven m ≤ m + 1 := by
  unfold Accuracy.roundToNearestEven
  split <;> omega

theorem describes_accuracyOfFraction (n : ℕ) {d : ℕ} (positive : 0 < d) :
    Describes (n / d) (n / d : ℚ) (accuracyOfFraction (n % d) d) := by
  have divisor : (0 : ℚ) < d := by exact_mod_cast positive
  have parts : (n : ℚ) / d = (n / d : ℕ) + (n % d : ℕ) / d := by
    rw [div_eq_iff divisor.ne', add_mul, div_mul_cancel₀ _ divisor.ne']
    exact_mod_cast (Nat.div_add_mod' n d).symm
  have below : ((n % d : ℕ) : ℚ) / d < 1 := by
    rw [div_lt_one divisor]
    exact_mod_cast Nat.mod_lt n positive
  have half : ((n % d : ℕ) : ℚ) / d = ((2 * (n % d) : ℕ) : ℚ) / d / 2 := by
    push_cast
    ring
  unfold accuracyOfFraction
  split
  · rename_i zero
    rw [parts, zero]
    simp [Describes]
  · rename_i nonzero
    have above : (0 : ℚ) < (n % d : ℕ) / d := by
      apply div_pos _ divisor
      exact_mod_cast Nat.pos_of_ne_zero nonzero
    cases order : compare (2 * (n % d)) d with
    | lt =>
      have less : ((2 * (n % d) : ℕ) : ℚ) / d < 1 := by
        rw [div_lt_one divisor]
        exact_mod_cast Nat.compare_eq_lt.1 order
      constructor <;> linarith
    | eq =>
      have equal : ((2 * (n % d) : ℕ) : ℚ) / d = 1 := by
        rw [div_eq_one_iff_eq divisor.ne']
        exact_mod_cast Nat.compare_eq_eq.1 order
      show (n : ℚ) / d = (n / d : ℕ) + 1 / 2
      linarith
    | gt =>
      have more : 1 < ((2 * (n % d) : ℕ) : ℚ) / d := by
        rw [one_lt_div divisor]
        exact_mod_cast Nat.compare_eq_gt.1 order
      constructor <;> linarith

def Represents (em : ExtendedMantissa) (y : ℚ) : Prop := Describes em.mantissa y em.accuracy

theorem represents_ofMantissaAndAccuracy (h : Describes m y accuracy) :
    Represents (.ofMantissaAndAccuracy m accuracy) y := by
  rcases accuracy with _ | _ | _ | _ <;> exact h

/-- The last bit of the whole part becomes the round bit, and both residual bits before it the sticky
bit. -/
theorem Represents.shiftRightOne {em : ExtendedMantissa} (h : Represents em y) :
    Represents em.shiftRightOne (y / 2) := by
  obtain ⟨m, round, sticky⟩ := em
  have parts : ((m % 2 : ℕ) : ℚ) + 2 * (m / 2 : ℕ) = m := by exact_mod_cast Nat.mod_add_div m 2
  have parity : m % 2 = 0 ∨ m % 2 = 1 := by omega
  rcases parity with last | last
  · have shifted : ExtendedMantissa.shiftRightOne ⟨m, round, sticky⟩ =
        ⟨m / 2, false, round || sticky⟩ := by
      simp [ExtendedMantissa.shiftRightOne, last]
    rw [last] at parts
    rw [shifted]
    cases round <;> cases sticky <;> simp only [Represents, Describes, ExtendedMantissa.accuracy,
      Bool.or_false, Bool.or_true, Nat.cast_zero] at h parts ⊢
    · linarith
    · constructor <;> linarith
    · constructor <;> linarith
    · constructor <;> linarith
  · have shifted : ExtendedMantissa.shiftRightOne ⟨m, round, sticky⟩ =
        ⟨m / 2, true, round || sticky⟩ := by
      simp [ExtendedMantissa.shiftRightOne, last]
    rw [last] at parts
    rw [shifted]
    cases round <;> cases sticky <;> simp only [Represents, Describes, ExtendedMantissa.accuracy,
      Bool.or_false, Bool.or_true, Nat.cast_one] at h parts ⊢
    · linarith
    · constructor <;> linarith
    · constructor <;> linarith
    · constructor <;> linarith

theorem Represents.shiftRight {em : ExtendedMantissa} (h : Represents em y) (n : ℕ) :
    Represents (em >>> n) (y / 2 ^ n) := by
  show Represents (n.repeat ExtendedMantissa.shiftRightOne em) _
  induction n with
  | zero => simpa [Nat.repeat] using h
  | succ n ih =>
    have shifted := ih.shiftRightOne
    rwa [div_div, ← pow_succ] at shifted

/-- The unit in which the model rounds a number with these leading bits. -/
def unit (m : ℕ) (e : ℤ) : ℤ := max (m.log2 + e - 52) (-1074)

theorem targetExponent_eq_unit (m : ℕ) (e : ℤ) :
    Format.binary64.targetExponent (totalExponent m e) = unit m e := by
  simp only [Format.targetExponent, totalExponent, Format.mantissaBits, Format.minExponent, unit]
  norm_num
  omega

theorem shiftToTargetExponent_eq (m : ℕ) (e : ℤ) (accuracy : Accuracy) :
    shiftToTargetExponent Format.binary64 m e accuracy =
      (ExtendedMantissa.ofMantissaAndAccuracy m accuracy >>> (unit m e - e).toNat,
        e + (unit m e - e).toNat) := by
  simp only [shiftToTargetExponent, shiftToExponent, targetExponent_eq_unit]

theorem log2_lt_of_lt {k n : ℕ} (h : k < 2 ^ (n + 1)) : k.log2 < n + 1 := by
  by_cases zero : k = 0
  · simp [zero]
  · exact (Nat.log2_lt zero).2 h

section Multiple

variable {k : ℕ} {t : ℤ}

theorem shiftToTargetExponent_of_lt (low : -1074 ≤ t) (small : k < 2 ^ 53) :
    shiftToTargetExponent Format.binary64 k t .exact = (⟨k, false, false⟩, t) := by
  have few : k.log2 < 53 := log2_lt_of_lt small
  have settled : (unit k t - t).toNat = 0 := by
    unfold unit
    omega
  rw [shiftToTargetExponent_eq, settled]
  simp only [Nat.cast_zero, add_zero]
  rfl

/-- A multiple that got one bit too many is halved. -/
theorem shiftToTargetExponent_carry (low : -1074 ≤ t) :
    shiftToTargetExponent Format.binary64 (2 ^ 53) t .exact = (⟨2 ^ 52, false, false⟩, t + 1) := by
  have carried : (unit (2 ^ 53) t - t).toNat = 1 := by
    rw [unit, Nat.log2_two_pow]
    omega
  rw [shiftToTargetExponent_eq, carried]
  rfl

def ofMultiple (k : ℕ) (t : ℤ) : UnpackedFloat :=
  if h : k = 0 then .zero .positive
  else if k < 2 ^ 53 then .finite .positive k t (Nat.pos_of_ne_zero h)
  else .finite .positive (2 ^ 52) (t + 1) (by decide)

end Multiple

theorem Describes.lt_two_pow (h : Describes m y accuracy) {n : ℕ} (enough : m.log2 ≤ n + 52) :
    y / 2 ^ n < 2 ^ 53 := by
  have above : m + 1 ≤ 2 ^ (m.log2 + 1) := Nat.lt_log2_self
  rw [div_lt_iff₀ (by positivity), ← pow_add]
  calc y < (m + 1 : ℕ) := by
        push_cast
        exact h.lt
    _ ≤ 2 ^ (m.log2 + 1) := by exact_mod_cast above
    _ ≤ 2 ^ (53 + n) := pow_le_pow_right₀ one_le_two (by omega)

theorem Describes.two_pow_le (h : Describes m y accuracy) {n : ℕ} (all : m.log2 = n + 52) :
    2 ^ 52 ≤ y / 2 ^ n := by
  have nonzero : m ≠ 0 := by
    rintro rfl
    simp at all
  have below : 2 ^ (52 + n) ≤ m := by
    rw [add_comm, ← all]
    exact Nat.log2_self_le nonzero
  rw [le_div_iff₀ (by positivity), ← pow_add]
  exact le_trans (by exact_mod_cast below) h.le

/-- Rounding the mantissa may carry into another bit, which is then shifted out again. -/
theorem roundWithAccuracy_eq {em : ExtendedMantissa} {t : ℤ}
    (first : shiftToTargetExponent Format.binary64 m e accuracy = (em, t)) (low : -1074 ≤ t)
    (bound : em.roundedMantissa ≤ 2 ^ 53) :
    roundWithAccuracy Format.binary64 .positive m e accuracy = ofMultiple em.roundedMantissa t := by
  unfold roundWithAccuracy ofMultiple
  rw [first]
  rcases Nat.lt_or_eq_of_le bound with small | carried
  · simp only [shiftToTargetExponent_of_lt low small, if_pos small]
  · simp only [carried, shiftToTargetExponent_carry low]
    rfl

/-- The model rounds a number to the multiple of its unit, if at least 53 bits of it are known or none
are needed. -/
theorem exists_roundsTo (h : Describes m y accuracy) (known : 52 ≤ m.log2 ∨ e ≤ -1074) :
    ∃ (k : ℕ) (t : ℤ), RoundsTo (y * 2 ^ e) k t ∧
      roundWithAccuracy Format.binary64 .positive m e accuracy = ofMultiple k t := by
  obtain ⟨n, shift⟩ : ∃ n : ℕ, unit m e = e + n := by
    refine ⟨(unit m e - e).toNat, ?_⟩
    unfold unit
    omega
  have low : -1074 ≤ unit m e := le_max_right _ _
  have cut : Represents (ExtendedMantissa.ofMantissaAndAccuracy m accuracy >>> n) (y / 2 ^ n) :=
    (represents_ofMantissaAndAccuracy h).shiftRight n
  have first : shiftToTargetExponent Format.binary64 m e accuracy =
      (ExtendedMantissa.ofMantissaAndAccuracy m accuracy >>> n, unit m e) := by
    rw [shiftToTargetExponent_eq, shift]
    simp
  generalize ExtendedMantissa.ofMantissaAndAccuracy m accuracy >>> n = em at cut first
  have value : y * 2 ^ e = y / 2 ^ n * 2 ^ unit m e := by
    rw [shift, zpow_add₀ two_ne_zero, zpow_natCast]
    field_simp
  have below : y / 2 ^ n < 2 ^ 53 := by
    apply h.lt_two_pow
    have := le_max_left (m.log2 + e - 52) (-1074)
    unfold unit at shift
    omega
  have above : unit m e = -1074 ∨ 2 ^ 52 ≤ y / 2 ^ n := by
    by_cases least : unit m e = -1074
    · exact .inl least
    · refine .inr (h.two_pow_le ?_)
      unfold unit at shift least
      omega
  have most : em.mantissa < 2 ^ 53 := by exact_mod_cast cut.le.trans_lt below
  have rounded := le_roundToNearestEven em.accuracy em.mantissa
  have bound : em.roundedMantissa ≤ 2 ^ 53 := rounded.2.trans most
  have power : (0 : ℚ) < 2 ^ unit m e := by positivity
  have distance : |(em.roundedMantissa : ℚ) * 2 ^ unit m e - y * 2 ^ e| =
      |(em.roundedMantissa : ℚ) - y / 2 ^ n| * 2 ^ unit m e := by
    rw [value, ← sub_mul, abs_mul, abs_of_pos power]
  have half : (2 : ℚ) ^ unit m e / 2 = 1 / 2 * 2 ^ unit m e := by ring
  obtain ⟨near, tie⟩ := cut.near
  refine ⟨em.roundedMantissa, unit m e, ⟨low, bound, ?_, ?_, ?_, ?_⟩,
    roundWithAccuracy_eq first low bound⟩
  · refine above.symm.imp_left fun large => ?_
    have leading : (2 ^ 52 : ℕ) < em.mantissa + 1 := by exact_mod_cast large.trans_lt cut.lt
    exact (Nat.le_of_lt_succ leading).trans rounded.1
  · rw [distance, half]
    exact mul_le_mul_of_nonneg_right near power.le
  · intro middle
    rw [distance, half] at middle
    exact tie (mul_right_cancel₀ power.ne' middle)
  · refine above.imp_right fun large => ?_
    rw [value]
    exact mul_le_mul_of_nonneg_right large power.le

/-! ### Packing -/

section Packing

variable {sign : Sign} {positive : 0 < m}

/-- The three cases of packing: beyond the largest unit, with all bits, and in the least unit. -/
theorem pack_finite :
    UnpackedFloat.pack Format.binary64 (.finite sign m e positive) =
      if 2 ^ 11 ≤ (e + 1023 + 52).toNat + 1 then packedInfinity Format.binary64 sign
      else if m.log2 + 1 = 53 then
        packComponents Format.binary64 sign (BitVec.ofNat 11 (e + 1023 + 52).toNat)
          (BitVec.ofNat 52 m)
      else packComponents Format.binary64 sign 0#11 (BitVec.ofNat 52 m) := rfl

theorem unpack_pack_of_large (high : 971 < e) :
    (Float.Model.pack (.finite sign m e positive)).unpack = .infinity sign := by
  show UnpackedFloat.unpack Format.binary64 (UnpackedFloat.pack Format.binary64 _) = _
  rw [pack_finite, if_pos (by omega)]
  cases sign <;> rfl

theorem unpack_pack_normal (leading : 2 ^ 52 ≤ m) (small : m < 2 ^ 53) (low : -1074 ≤ e)
    (high : e ≤ 971) :
    (Float.Model.pack (.finite sign m e positive)).unpack = .finite sign m e positive := by
  have bits : m.log2 = 52 := (Nat.log2_eq_iff positive.ne').2 ⟨leading, small⟩
  obtain ⟨field, biased⟩ : ∃ field : ℕ, e + 1023 + 52 = field :=
    ⟨(e + 1023 + 52).toNat, by omega⟩
  have exponent : (BitVec.ofNat 11 field).toNat = field := by
    rw [BitVec.toNat_ofNat, Nat.mod_eq_of_lt (by omega)]
  have notFull : BitVec.ofNat 11 field ≠ -1#11 := by
    intro full
    rw [full] at exponent
    simp at exponent
    omega
  have nonzero : BitVec.ofNat 11 field ≠ 0#11 := by
    intro zero
    rw [zero] at exponent
    simp at exponent
    omega
  have fraction : (1#1 ++ BitVec.ofNat 52 m).toNat = m := by
    rw [BitVec.toNat_append, ← Nat.shiftLeft_add_eq_or_of_lt (BitVec.ofNat 52 m).isLt,
      BitVec.toNat_ofNat]
    simp only [BitVec.toNat_ofNat]
    omega
  show UnpackedFloat.unpack Format.binary64 (UnpackedFloat.pack Format.binary64 _) = _
  rw [pack_finite, if_neg (by omega), if_pos (by omega), biased, Int.toNat_natCast]
  simp only [UnpackedFloat.unpack, unpackMantissa_packComponents, unpackExponent_packComponents,
    unpackSign_packComponents, if_neg notFull, if_neg nonzero, fraction, exponent]
  rw [UnpackedFloat.finite.injEq]
  refine ⟨Sign.ofBitVec_toBitVec sign, rfl, ?_⟩
  rw [← biased]
  show e + 1023 + 52 - (1023 + 52) = e
  omega

theorem unpack_pack_subnormal (small : m < 2 ^ 52) :
    (Float.Model.pack (.finite sign m (-1074) positive)).unpack =
      .finite sign m (-1074) positive := by
  have few : m.log2 < 52 := log2_lt_of_lt small
  have fraction : (BitVec.ofNat 52 m).toNat = m := by
    rw [BitVec.toNat_ofNat, Nat.mod_eq_of_lt small]
  have nonzero : BitVec.ofNat 52 m ≠ 0#52 := by
    intro zero
    rw [zero] at fraction
    simp at fraction
    omega
  show UnpackedFloat.unpack Format.binary64 (UnpackedFloat.pack Format.binary64 _) = _
  rw [pack_finite, if_neg (by decide), if_neg (by omega)]
  simp only [UnpackedFloat.unpack, unpackMantissa_packComponents, unpackExponent_packComponents,
    unpackSign_packComponents, fraction, dif_neg nonzero]
  cases sign <;> rfl

theorem ofFloat_pack_ofMultiple {k : ℕ} {t : ℤ} (low : -1074 ≤ t) (bound : k ≤ 2 ^ 53)
    (full : 2 ^ 52 ≤ k ∨ t = -1074) :
    Binary.ofFloat (.ofModel (.pack (ofMultiple k t))) = .ofMultiple k t := by
  rw [Binary.ofFloat_eq_ofUnpacked]
  unfold ofMultiple Binary.ofMultiple Binary.bounded
  by_cases zero : k = 0
  · subst zero
    obtain rfl : t = -1074 := full.resolve_left (by norm_num)
    rfl
  · rw [dif_neg zero]
    split
    · rename_i small
      by_cases large : 971 < t
      · rw [if_pos large, unpack_pack_of_large large]
        rfl
      · rw [if_neg large]
        rcases Nat.lt_or_ge k (2 ^ 52) with few | leading
        · obtain rfl : t = -1074 := full.resolve_left (by omega)
          rw [unpack_pack_subnormal few]
          rfl
        · rw [unpack_pack_normal leading small low (by omega)]
          rfl
    · by_cases large : 971 < t + 1
      · rw [if_pos large, unpack_pack_of_large large]
        rfl
      · rw [if_neg large, unpack_pack_normal le_rfl (by norm_num) (by omega) (by omega)]
        rfl

end Packing

/-- What the model rounds to is the nearest double. -/
theorem isNearest_round (h : Describes m y accuracy) (known : 52 ≤ m.log2 ∨ e ≤ -1074) :
    IsNearest (y * 2 ^ e)
      (.ofModel (.pack (roundWithAccuracy Format.binary64 .positive m e accuracy))) := by
  obtain ⟨k, t, rounds, result⟩ := exists_roundsTo h known
  rw [result]
  exact isNearest_of_roundsTo rounds (ofFloat_pack_ofMultiple rounds.low rounds.bound rounds.full)

end Rounding

end Reckoner
