import Reckoner.Number.Decimal
import Reckoner.Proofs.Number.Rounding

/-!
# Reading decimals

A decimal is read as the nearest double. Short ones are a product or a quotient of two doubles that are
exact, and others are computed with as many bits as rounding needs; products and quotients are rounded
once.
-/

set_option autoImplicit false

namespace Reckoner

open Float.Model (UnpackedFloat Format totalExponent)
open Float.Model.UnpackedFloat
open Rounding (Describes)

namespace Rounding

variable {m₁ m₂ : ℕ} {e₁ e₂ : ℤ} {positive₁ : 0 < m₁} {positive₂ : 0 < m₂}

theorem isNearest_mul (known : 52 ≤ (m₁ * m₂).log2 ∨ e₁ + e₂ ≤ -1074) :
    IsNearest (m₁ * 2 ^ e₁ * (m₂ * 2 ^ e₂))
      (.ofModel (.pack (mul Format.binary64 (.finite .positive m₁ e₁ positive₁)
        (.finite .positive m₂ e₂ positive₂)))) := by
  have exact : Describes (m₁ * m₂) (m₁ * m₂ : ℚ) .exact := by simp [Describes]
  have value : (m₁ * 2 ^ e₁ * (m₂ * 2 ^ e₂) : ℚ) = m₁ * m₂ * 2 ^ (e₁ + e₂) := by
    rw [zpow_add₀ two_ne_zero]
    ring
  rw [value]
  exact isNearest_round exact known

theorem log2_mul_two_pow {m : ℕ} (positive : 0 < m) (n : ℕ) : (m * 2 ^ n).log2 = m.log2 + n := by
  have nonzero : m * 2 ^ n ≠ 0 := (Nat.mul_pos positive (Nat.two_pow_pos n)).ne'
  rw [Nat.log2_eq_iff nonzero]
  constructor
  · rw [pow_add]
    exact Nat.mul_le_mul_right _ (Nat.log2_self_le positive.ne')
  · rw [add_right_comm, pow_add]
    exact Nat.mul_lt_mul_of_pos_right Nat.lt_log2_self (Nat.two_pow_pos n)

theorem le_log2_div {n d k : ℕ} (positive : 0 < d) (longer : d.log2 + 1 + k ≤ n.log2) :
    k ≤ (n / d).log2 := by
  have nonzero : n ≠ 0 := by
    rintro rfl
    simp at longer
  have enough : 2 ^ k ≤ n / d := by
    rw [Nat.le_div_iff_mul_le positive]
    calc 2 ^ k * d ≤ 2 ^ k * 2 ^ (d.log2 + 1) := Nat.mul_le_mul_left _ Nat.lt_log2_self.le
      _ = 2 ^ (d.log2 + 1 + k) := by rw [← pow_add, add_comm]
      _ ≤ 2 ^ n.log2 := Nat.pow_le_pow_right two_pos longer
      _ ≤ n := Nat.log2_self_le nonzero
  exact (Nat.le_log2 (Nat.two_pow_pos k |>.trans_le enough).ne').2 enough

/-- The dividend is shifted so far that the quotient has the bits that rounding needs. -/
theorem exists_divCore (m₁ : ℕ) (e₁ : ℤ) (m₂ : ℕ) (e₂ : ℤ) (positive₁ : 0 < m₁)
    (positive₂ : 0 < m₂) :
    ∃ n : ℕ, divCore Format.binary64 m₁ e₁ m₂ e₂ =
        (m₁ * 2 ^ n / m₂, e₁ - e₂ - n, accuracyOfFraction (m₁ * 2 ^ n % m₂) m₂) ∧
      (52 ≤ (m₁ * 2 ^ n / m₂).log2 ∨ e₁ - e₂ - n ≤ -1074) := by
  have target : Format.binary64.targetExponent (totalExponent m₁ e₁ - totalExponent m₂ e₂) =
      max (totalExponent m₁ e₁ - totalExponent m₂ e₂ - 53) (-1074) := rfl
  obtain ⟨n, shift⟩ : ∃ n : ℕ, min (e₁ - e₂)
      (max (totalExponent m₁ e₁ - totalExponent m₂ e₂ - 53) (-1074)) = e₁ - e₂ - n :=
    ⟨(e₁ - e₂ - min (e₁ - e₂)
      (max (totalExponent m₁ e₁ - totalExponent m₂ e₂ - 53) (-1074))).toNat, by omega⟩
  refine ⟨n, ?_, ?_⟩
  · simp only [divCore, target, shift, Nat.shiftLeft_eq]
    simp
  · by_cases least : e₁ - e₂ - n ≤ -1074
    · exact .inr least
    · have bits : (m₁ * 2 ^ n).log2 = m₁.log2 + n := log2_mul_two_pow positive₁ n
      refine .inl (le_log2_div positive₂ ?_)
      rw [bits]
      simp only [totalExponent] at shift
      omega

theorem isNearest_div :
    IsNearest (m₁ * 2 ^ e₁ / (m₂ * 2 ^ e₂))
      (.ofModel (.pack (div Format.binary64 (.finite .positive m₁ e₁ positive₁)
        (.finite .positive m₂ e₂ positive₂)))) := by
  obtain ⟨n, parts, known⟩ := exists_divCore m₁ e₁ m₂ e₂ positive₁ positive₂
  have value : (m₁ * 2 ^ e₁ / (m₂ * 2 ^ e₂) : ℚ) =
      ((m₁ * 2 ^ n : ℕ) : ℚ) / m₂ * 2 ^ (e₁ - e₂ - n) := by
    rw [zpow_sub₀ two_ne_zero, zpow_sub₀ two_ne_zero, zpow_natCast]
    push_cast
    field_simp
  have rounded := isNearest_round (describes_accuracyOfFraction (m₁ * 2 ^ n) positive₂) known
  rw [value]
  simp only [div, parts]
  exact rounded

theorem isNearest_zero {x : ℚ} (nonneg : 0 ≤ x) (small : x ≤ 2 ^ (-1074 : ℤ) / 2) :
    IsNearest x (.ofModel (.pack (.zero .positive))) := by
  refine isNearest_of_roundsTo (roundsTo_zero nonneg small) ?_
  rw [Binary.ofFloat_eq_ofUnpacked]
  rfl

theorem isNearest_infinity {x : ℚ} (large : 2 ^ 1024 ≤ x) :
    IsNearest x (.ofModel (.pack (.infinity .positive))) := by
  refine isNearest_of_infinite large ?_
  rw [Binary.ofFloat_eq_ofUnpacked]
  rfl

section Bounds

variable {m : ℕ} {e : ℤ}

theorem two_pow_le_of_large (positive : 0 < m) (large : 2 ^ 11 < e) :
    (2 : ℚ) ^ 1024 ≤ m * 10 ^ e := by
  have one : (1 : ℚ) ≤ m := by exact_mod_cast positive
  calc (2 : ℚ) ^ 1024 ≤ 10 ^ 1024 := pow_le_pow_left₀ (by norm_num) (by norm_num) 1024
    _ = 10 ^ (1024 : ℤ) := (zpow_natCast _ _).symm
    _ ≤ 10 ^ e := zpow_le_zpow_right₀ (by norm_num) (by omega)
    _ ≤ m * 10 ^ e := le_mul_of_one_le_left (by positivity) one

theorem le_half_of_small (small : e < -(2 ^ 11 + m.log2)) :
    (m * 10 ^ e : ℚ) ≤ 2 ^ (-1074 : ℤ) / 2 := by
  obtain ⟨n, rfl⟩ : ∃ n : ℕ, e = -n := ⟨(-e).toNat, by omega⟩
  have below : (m : ℚ) ≤ 2 ^ (m.log2 + 1) := by exact_mod_cast Nat.lt_log2_self.le
  have power : (2 : ℚ) ^ n ≤ 10 ^ n := pow_le_pow_left₀ (by norm_num) (by norm_num) n
  calc (m * 10 ^ (-n : ℤ) : ℚ) = m / 10 ^ n := by rw [zpow_neg, zpow_natCast, div_eq_mul_inv]
    _ ≤ 2 ^ (m.log2 + 1) / 2 ^ n := by gcongr
    _ = 2 ^ ((m.log2 + 1 : ℕ) - n : ℤ) := by
      rw [zpow_sub₀ two_ne_zero, zpow_natCast, zpow_natCast]
    _ ≤ 2 ^ (-1075 : ℤ) := zpow_le_zpow_right₀ one_le_two (by push_cast; omega)
    _ = 2 ^ (-1074 : ℤ) / 2 := by
      rw [div_eq_mul_inv, ← zpow_sub_one₀ two_ne_zero]
      norm_num

end Bounds

/-- The model computes a decimal exactly up to one rounding, and sees beforehand which ones are too
large or too small for any other double. -/
theorem isNearest_ofScientific (m : ℕ) (e : ℤ) :
    IsNearest (m * 10 ^ e) (.ofModel (Float.Model.ofScientific m e)) := by
  unfold Float.Model.ofScientific UnpackedFloat.ofScientific
  split
  · rename_i zero
    subst zero
    exact isNearest_zero (by simp) (by rw [Nat.cast_zero, zero_mul]; positivity)
  rename_i nonzero
  split
  · rename_i large
    exact isNearest_infinity (two_pow_le_of_large (Nat.pos_of_ne_zero nonzero) large)
  rename_i notLarge
  split
  · rename_i small
    exact isNearest_zero (by positivity) (le_half_of_small small)
  split
  · rename_i natural
    have bits : Format.binary64.mantissaBits = 53 := rfl
    have value : (m * 10 ^ e : ℚ) =
        (m * 2 ^ 53 : ℕ) * 2 ^ (-(53 : ℕ) : ℤ) * ((10 ^ e.toNat : ℕ) * 2 ^ (0 : ℤ)) := by
      conv_lhs => rw [← Int.toNat_of_nonneg natural]
      rw [zpow_natCast, zpow_neg, zpow_natCast, zpow_zero]
      push_cast
      field_simp
      norm_num
    simp only [bits, Nat.shiftLeft_eq]
    rw [value]
    refine isNearest_mul (.inl ?_)
    have product : 0 < m * 10 ^ e.toNat := by positivity
    rw [mul_right_comm, log2_mul_two_pow product]
    omega
  · rename_i negative
    have value : (m * 10 ^ e : ℚ) =
        m * 2 ^ (0 : ℤ) / ((10 ^ (-e).toNat : ℕ) * 2 ^ (0 : ℤ)) := by
      obtain ⟨n, rfl⟩ : ∃ n : ℕ, e = -n := ⟨(-e).toNat, by omega⟩
      rw [neg_neg, Int.toNat_natCast, zpow_neg, zpow_natCast, zpow_zero]
      push_cast
      ring
    rw [value]
    exact isNearest_div

end Rounding

section Short

open Rounding (isNearest_mul isNearest_div)

theorem Binary.unpack_of_ofFloat {a : Float} {m : ℕ} {e : ℤ} (h : ofFloat a = .finite false m e)
    (positive : 0 < m) : a.toModel.unpack = .finite .positive m e positive := by
  rw [ofFloat_eq_ofUnpacked] at h
  cases unpacked : a.toModel.unpack with
  | notANumber | infinity => simp [unpacked, ofUnpacked] at h
  | zero sign =>
    rw [unpacked, ofUnpacked, Binary.finite.injEq] at h
    omega
  | finite sign m' e' positive' =>
    rw [unpacked, ofUnpacked, Binary.finite.injEq] at h
    obtain ⟨unsigned, rfl, rfl⟩ := h
    cases sign with
    | negative => cases unsigned
    | positive => rfl

theorem isNearest_mul_of_ofFloat {a b : Float} {m₁ m₂ : ℕ} {e₁ e₂ : ℤ}
    (first : Binary.ofFloat a = .finite false m₁ e₁) (second : Binary.ofFloat b = .finite false m₂ e₂)
    (positive₁ : 0 < m₁) (positive₂ : 0 < m₂) :
    IsNearest (m₁ * 2 ^ e₁ * (m₂ * 2 ^ e₂)) (a * b) := by
  show IsNearest _ (.ofModel (.pack (UnpackedFloat.mul Format.binary64 a.toModel.unpack
    b.toModel.unpack)))
  rw [Binary.unpack_of_ofFloat first positive₁, Binary.unpack_of_ofFloat second positive₂]
  apply isNearest_mul
  -- Unless both are of the least unit, one of the factors has 53 bits.
  have product : m₁ * m₂ ≠ 0 := (Nat.mul_pos positive₁ positive₂).ne'
  have format₁ := Binary.inFormat_ofFloat a
  have format₂ := Binary.inFormat_ofFloat b
  rw [first] at format₁
  rw [second] at format₂
  obtain ⟨_, _, _, full₁ | rfl⟩ := format₁
  · exact .inl ((Nat.le_log2 product).2 (full₁.trans (Nat.le_mul_of_pos_right m₁ positive₂)))
  · obtain ⟨_, _, _, full₂ | rfl⟩ := format₂
    · exact .inl ((Nat.le_log2 product).2 (full₂.trans (Nat.le_mul_of_pos_left m₂ positive₁)))
    · exact .inr (by norm_num)

theorem isNearest_div_of_ofFloat {a b : Float} {m₁ m₂ : ℕ} {e₁ e₂ : ℤ}
    (first : Binary.ofFloat a = .finite false m₁ e₁) (second : Binary.ofFloat b = .finite false m₂ e₂)
    (positive₁ : 0 < m₁) (positive₂ : 0 < m₂) :
    IsNearest (m₁ * 2 ^ e₁ / (m₂ * 2 ^ e₂)) (a / b) := by
  show IsNearest _ (.ofModel (.pack (UnpackedFloat.div Format.binary64 a.toModel.unpack
    b.toModel.unpack)))
  rw [Binary.unpack_of_ofFloat first positive₁, Binary.unpack_of_ofFloat second positive₂]
  exact isNearest_div

theorem Binary.exists_finite_of_place? {x : Binary} {v : ℚ} (h : x.place? = some v)
    (unsigned : x.hasSign = false) (positive : 0 < v) (small : v < 2 ^ 1024) :
    ∃ (k : ℕ) (t : ℤ), x = .finite false k t ∧ 0 < k ∧ (k * 2 ^ t : ℚ) = v := by
  cases x with
  | nan => cases h
  | infinite negative =>
    cases unsigned
    rw [place?, Option.some.injEq] at h
    exact absurd h small.ne'
  | finite negative k t =>
    cases unsigned
    rw [place?, Option.some.injEq] at h
    refine ⟨k, t, rfl, Nat.pos_of_ne_zero ?_, h⟩
    rintro rfl
    simp [signed] at h
    exact positive.ne h

/-- Whole numbers of at most 53 bits are shifted to 53 bits before they are rounded. -/
theorem toFloat_eq {m : ℕ} (positive : 0 < m) (small : m < 2 ^ 53) :
    m.toUInt64.toFloat = .ofModel (.pack (roundWithAccuracy Format.binary64 .positive
      (m * 2 ^ (52 - m.log2)) (-(52 - m.log2 : ℕ)) .exact)) := by
  have few : m.log2 < 53 := Rounding.log2_lt_of_lt small
  have word : m.toUInt64.toNat = m := by
    have below : m < UInt64.size := small.trans (by decide)
    exact UInt64.toNat_ofNat_of_lt' below
  have shift : (-Rounding.unit m 0).toNat = 52 - m.log2 := by
    unfold Rounding.unit
    omega
  show Float.ofModel
    (.pack (UnpackedFloat.normalize Format.binary64 (m.toUInt64.toNat : ℤ) 0 .positive)) = _
  have order : compare (m : ℤ) 0 = .gt := by
    rw [Int.compare_eq_gt]
    omega
  simp only [word, UnpackedFloat.normalize, order, UnpackedFloat.round, decreaseExponent,
    Rounding.targetExponent_eq_unit, shift, Nat.shiftLeft_eq, Int.toNat_natCast, zero_sub]

theorem exists_ofFloat_toFloat {m : ℕ} (positive : 0 < m) (small : m < 2 ^ 53) :
    ∃ (k : ℕ) (t : ℤ), Binary.ofFloat m.toUInt64.toFloat = .finite false k t ∧ 0 < k ∧
      (k * 2 ^ t : ℚ) = m := by
  have bits : (m * 2 ^ (52 - m.log2)).log2 = 52 := by
    have few : m.log2 < 53 := Rounding.log2_lt_of_lt small
    rw [Rounding.log2_mul_two_pow positive]
    omega
  have exact : Describes (m * 2 ^ (52 - m.log2)) (m * 2 ^ (52 - m.log2) : ℚ) .exact := by
    simp [Describes]
  obtain ⟨k, t, rounds, result⟩ :=
    Rounding.exists_roundsTo (e := -(52 - m.log2 : ℕ)) exact (.inl bits.ge)
  have value : (m * 2 ^ (52 - m.log2) * 2 ^ (-(52 - m.log2 : ℕ) : ℤ) : ℚ) =
      (m : ℤ) * 2 ^ (0 : ℤ) := by
    rw [zpow_neg, zpow_natCast, zpow_zero, mul_one, Int.cast_natCast]
    field_simp
  rw [value] at rounds
  have word : |(m : ℤ)| ≤ 2 ^ 53 := by
    rw [abs_of_nonneg (by positivity)]
    exact_mod_cast small.le
  have same := rounds.eq word (by norm_num)
  rw [zpow_zero, mul_one, Int.cast_natCast] at same
  have taken := Rounding.ofFloat_pack_ofMultiple rounds.low rounds.bound rounds.full
  rw [← result, ← toFloat_eq positive small] at taken
  have below : (m : ℚ) < 2 ^ 1024 := by
    have few : (m : ℚ) < 2 ^ 53 := by exact_mod_cast small
    exact few.trans_le (pow_le_pow_right₀ one_le_two (by norm_num))
  have inRange : t ≤ 971 := by
    by_contra beyond
    have large := rounds.two_pow_le (Int.not_le.1 beyond)
    rw [zpow_zero, mul_one, Int.cast_natCast] at large
    exact absurd large below.not_ge
  have place := Binary.place?_ofMultiple inRange rounds.bound
  rw [← taken, same] at place
  have unsigned : (Binary.ofFloat m.toUInt64.toFloat).hasSign = false :=
    taken ▸ Binary.hasSign_ofMultiple k t
  exact Binary.exists_finite_of_place? place unsigned (by exact_mod_cast positive) below

def isPowerOfTen (n : ℕ) : Binary → Bool
  | .finite false k t => -52 ≤ t && 0 < k && k * 2 ^ (t + 52).toNat == 10 ^ n * 2 ^ 52
  | _ => false

theorem isPowerOfTen_table : ∀ n : Fin Float.exactlyRepresentablePowersOfTen.size,
    isPowerOfTen n (Binary.ofFloat Float.exactlyRepresentablePowersOfTen[n]) = true := by
  decide +kernel

theorem exists_of_isPowerOfTen {n : ℕ} {x : Binary} (h : isPowerOfTen n x = true) :
    ∃ (k : ℕ) (t : ℤ), x = .finite false k t ∧ 0 < k ∧ (k * 2 ^ t : ℚ) = 10 ^ n := by
  unfold isPowerOfTen at h
  split at h
  · rename_i k t
    simp only [Bool.and_eq_true, decide_eq_true_eq, beq_iff_eq] at h
    obtain ⟨⟨low, positive⟩, scaled⟩ := h
    refine ⟨k, t, rfl, positive, ?_⟩
    have exponent : ((t + 52).toNat : ℤ) = t + (52 : ℕ) := by omega
    have cast : (k : ℚ) * 2 ^ (t + (52 : ℕ)) = 10 ^ n * 2 ^ 52 := by
      rw [← exponent, zpow_natCast]
      exact_mod_cast scaled
    rw [zpow_add₀ two_ne_zero, zpow_natCast, ← mul_assoc] at cast
    exact mul_right_cancel₀ (by positivity) cast
  · cases h

/-- Whole numbers of at most 53 bits, zero among them, are multiplied and divided exactly but for the
rounding. -/
theorem isNearest_toFloat_mul_div {m : ℕ} (small : m < 2 ^ 53) {b : Float} {k : ℕ} {t : ℤ}
    (power : Binary.ofFloat b = .finite false k t) (positive : 0 < k) :
    IsNearest (m * (k * 2 ^ t)) (m.toUInt64.toFloat * b) ∧
      IsNearest (m / (k * 2 ^ t)) (m.toUInt64.toFloat / b) := by
  rcases Nat.eq_zero_or_pos m with rfl | nonzero
  · have zero : ((0 : ℕ).toUInt64.toFloat).toModel.unpack = .zero .positive := by rfl
    have unpacked := Binary.unpack_of_ofFloat power positive
    rw [Nat.cast_zero, zero_mul, zero_div]
    constructor
    · show IsNearest 0 (.ofModel (.pack (UnpackedFloat.mul Format.binary64 _ _)))
      rw [zero, unpacked]
      exact Rounding.isNearest_zero le_rfl (by positivity)
    · show IsNearest 0 (.ofModel (.pack (UnpackedFloat.div Format.binary64 _ _)))
      rw [zero, unpacked]
      exact Rounding.isNearest_zero le_rfl (by positivity)
  · obtain ⟨k', t', whole, positive', value⟩ := exists_ofFloat_toFloat nonzero small
    rw [← value]
    exact ⟨isNearest_mul_of_ofFloat whole power positive' positive,
      isNearest_div_of_ofFloat whole power positive' positive⟩

theorem isNearest_floatOfScientific (m : ℕ) (negative : Bool) (n : ℕ) :
    IsNearest (m * 10 ^ (if negative then -n else n : ℤ)) (Float.ofScientific m negative n) := by
  rw [Float.ofScientific]
  by_cases short : m < 2 ^ 53 ∧ n ≤ 22
  · rw [dif_pos short]
    obtain ⟨k, t, power, positive, value⟩ := exists_of_isPowerOfTen
      (isPowerOfTen_table ⟨n, Nat.lt_succ_of_le short.2⟩)
    obtain ⟨product, quotient⟩ := isNearest_toFloat_mul_div short.1 power positive
    rw [value] at product quotient
    cases negative with
    | false =>
      simp only [Bool.false_eq_true, if_false, zpow_natCast]
      exact product
    | true =>
      simp only [if_true, zpow_neg, zpow_natCast, ← div_eq_mul_inv]
      exact quotient
  · rw [dif_neg short]
    cases negative <;> exact Rounding.isNearest_ofScientific m _

end Short

namespace Decimal

def value (d : Decimal) : ℚ := d.coefficient * 10 ^ d.exponent

def positional (digits : List Char) : ℕ := Nat.ofDigits 10 (digits.reverse.map digitValue)

/-- The number that a numeral writes: the digits before the point count wholes, and those after it
fractions by powers of ten. -/
def numeralValue (numeral : List Char) : ℚ :=
  let whole := numeral.takeWhile (· != '.')
  let fraction := (numeral.dropWhile (· != '.')).tail
  positional whole + positional fraction / 10 ^ fraction.length

theorem positional_append (digits later : List Char) :
    positional (digits ++ later) = positional digits * 10 ^ later.length + positional later := by
  simp [positional, Nat.ofDigits_append, add_comm, mul_comm]

theorem digitsValue_eq_positional (digits : List Char) : digitsValue digits = positional digits := by
  induction digits using List.reverseRecOn with
  | nil => rfl
  | append_singleton digits c ih =>
    rw [positional_append, ← ih, digitsValue, List.foldl_append, ← digitsValue]
    simp [positional, mul_comm]

theorem isNearest_toFloat (d : Decimal) : IsNearest d.value d.toFloat := by
  have exponent : (if d.exponent < 0 then -d.exponent.natAbs else d.exponent.natAbs : ℤ) =
      d.exponent := by
    split <;> omega
  have nearest := isNearest_floatOfScientific d.coefficient (d.exponent < 0) d.exponent.natAbs
  simp only [decide_eq_true_eq, exponent] at nearest
  exact nearest

section Numeral

variable {whole fraction : List Char}

/-- A numeral is taken apart at its point by the digits before it as by the point itself. -/
theorem split_numeral {p : Char → Bool} (digits : ∀ c ∈ whole, p c = true) (point : p '.' = false)
    {numeral : List Char}
    (written : numeral = whole ∧ fraction = [] ∨ numeral = whole ++ '.' :: fraction) :
    numeral.takeWhile p = whole ∧ (numeral.dropWhile p).tail = fraction := by
  rcases written with ⟨rfl, rfl⟩ | rfl
  · rw [← List.append_nil numeral, List.takeWhile_append_of_pos digits,
      List.dropWhile_append_of_pos digits]
    simp
  · rw [List.takeWhile_append_of_pos digits, List.dropWhile_append_of_pos digits]
    simp [point]

theorem value_ofNumeral {numeral : List Char} (digits : ∀ c ∈ whole, c.isDigit = true)
    (written : numeral = whole ∧ fraction = [] ∨ numeral = whole ++ '.' :: fraction) :
    (ofNumeral numeral).value = numeralValue numeral := by
  have unpointed : ∀ c ∈ whole, (c != '.') = true := by
    intro c inside
    rw [bne_iff_ne]
    rintro rfl
    cases digits '.' inside
  obtain ⟨taken, dropped⟩ := split_numeral digits rfl written
  obtain ⟨taken', dropped'⟩ := split_numeral unpointed rfl written
  simp only [value, ofNumeral, numeralValue, taken, taken', dropped', List.drop_one, dropped]
  rw [digitsValue_eq_positional, positional_append, zpow_neg, zpow_natCast]
  push_cast
  field_simp

end Numeral

end Decimal

end Reckoner
