import Reckoner.Number.Shortest
import Reckoner.Proofs.Number.Reading
import Reckoner.Proofs.Number.Unique

/-!
# The shortest decimal reads back

Whatever decimal is found for a double, it is read as that double: candidates are tried before they are
taken, and all digits of the double write its own place. Taking a double apart and putting it together
gives it back, so the double that candidates are compared with is the right one.
-/

set_option autoImplicit false

namespace Reckoner

open Float.Model (UnpackedFloat)

namespace Binary

variable {x : Float} {m : ℕ} {e : ℤ}

theorem magnitudeBits_subnormal (small : m < 2 ^ 52) : magnitudeBits m (-1074) = m := by
  unfold magnitudeBits
  rcases Nat.eq_zero_or_pos m with rfl | positive
  · rfl
  · have few : m.log2 < 52 := Rounding.log2_lt_of_lt small
    rw [if_neg positive.ne', if_pos (by omega)]
    exact Nat.mul_one m

theorem magnitudeBits_normal {fraction field : ℕ} (small : fraction < 2 ^ 52) (nonzero : field ≠ 0) :
    magnitudeBits (2 ^ 52 + fraction) ((field : ℤ) - 1075) = field * 2 ^ 52 + fraction := by
  have leading : (2 ^ 52 + fraction).log2 = 52 :=
    (Nat.log2_eq_iff (by omega)).2 ⟨by omega, by omega⟩
  have exponent : ((field : ℤ) - 1075 + (52 : ℕ) + 1022).toNat = field - 1 := by omega
  have unit : Nat.pow 2 52 = 2 ^ 52 := rfl
  have one : Nat.pow 2 (52 - 52) = 1 := rfl
  simp only [magnitudeBits, leading]
  rw [if_neg (by omega), if_neg (by omega), exponent, unit, one]
  omega

/-- Putting the parts of a finite double without a sign together gives the double. -/
theorem toFloat_of_ofFloat (h : ofFloat x = .finite false m e) :
    (finite false m e).toFloat = x := by
  have below : x.toBits.toNat < 2 ^ 64 := x.toBits.toBitVec.isLt
  have bits : magnitudeBits m e = x.toBits.toNat := by
    have leading : Nat.pow 2 52 = 2 ^ 52 := rfl
    have full : Nat.pow 2 11 = 2 ^ 11 := rfl
    have top : Nat.pow 2 63 = 2 ^ 63 := rfl
    simp only [ofFloat, leading, full, top] at h
    have fraction : x.toBits.toNat % 2 ^ 52 < 2 ^ 52 := Nat.mod_lt _ (by decide)
    split at h
    · split at h <;> cases h
    · split at h
      · rename_i zero
        simp only [finite.injEq, beq_eq_false_iff_ne] at h
        obtain ⟨unsigned, rfl, rfl⟩ := h
        rw [magnitudeBits_subnormal fraction]
        omega
      · rename_i nonzero
        simp only [finite.injEq, beq_eq_false_iff_ne] at h
        obtain ⟨unsigned, rfl, rfl⟩ := h
        rw [magnitudeBits_normal fraction nonzero]
        omega
  have word : (signBit false + magnitudeBits m e).toUInt64 = x.toBits := by
    rw [bits, signBit, if_neg (by decide), Nat.zero_add]
    exact UInt64.ofNat_toNat
  rw [toFloat, word, Float.ofBits_toBits]

theorem eq_of_beq {y : Float} (h : ofFloat x = .finite false m e) (positive : 0 < m)
    (same : (y == x) = true) : y = x := by
  have unpacked := unpack_of_ofFloat h positive
  have compared : y.toModel.unpack.beq x.toModel.unpack = true := same
  obtain ⟨_, _, equal | ⟨_, zero⟩ | ⟨_, zero⟩⟩ :=
    (UnpackedFloat.beq_iff_ne_notANumber_and_eq _ _).1 compared
  · apply ofFloat_injective
    rw [ofFloat_eq_ofUnpacked, ofFloat_eq_ofUnpacked, equal]
  · rw [unpacked] at zero
    cases zero
  · rw [unpacked] at zero
    cases zero

theorem isNearest_self (h : ofFloat x = .finite false m e) : IsNearest (m * 2 ^ e) x where
  unsigned := by
    rw [h]
    rfl
  exists_place := by
    refine ⟨m * 2 ^ e, by rw [h]; rfl, fun z w _ => ?_⟩
    rw [sub_self, abs_zero]
    rcases eq_or_ne w (m * 2 ^ e) with rfl | other
    · exact .inr ⟨by rw [sub_self, abs_zero], .inl rfl⟩
    · exact .inl (abs_pos.2 (sub_ne_zero.2 other))

end Binary

namespace Decimal

theorem toFloat_congr {d d' : Decimal} (h : d.value = d'.value) : d.toFloat = d'.toFloat := by
  have nearest := d.isNearest_toFloat
  rw [h] at nearest
  exact nearest.unique d'.isNearest_toFloat

end Decimal

namespace Shortest

variable {x : Float} {m : ℕ} {e : ℤ}

theorem value_exact (m : ℕ) (e : ℤ) : (exact m e).value = m * 2 ^ e := by
  have five (n : ℕ) : Nat.pow 5 n = 5 ^ n := rfl
  have two (n : ℕ) : Nat.pow 2 n = 2 ^ n := rfl
  unfold exact
  split
  · rename_i negative
    obtain ⟨n, rfl⟩ : ∃ n : ℕ, e = -n := ⟨e.natAbs, by omega⟩
    have ten : (10 : ℚ) ^ n = 2 ^ n * 5 ^ n := by rw [← mul_pow]; norm_num
    simp only [Decimal.value, five, Int.natAbs_neg, Int.natAbs_natCast, zpow_neg, zpow_natCast, ten]
    push_cast
    field_simp
  · rename_i nonneg
    obtain ⟨n, rfl⟩ : ∃ n : ℕ, e = n := ⟨e.natAbs, by omega⟩
    simp only [Decimal.value, two, Int.natAbs_natCast, zpow_natCast, zpow_zero, mul_one]
    push_cast
    rfl

theorem beq_of_ofLength? {place : ℤ} {count : ℕ} {d : Decimal}
    (h : ofLength? x m e place count = some d) : (d.toFloat == x) = true := by
  unfold ofLength? at h
  simp only at h
  split at h
  · rename_i below above
    cases h
    split
    · exact below
    · exact above
  · cases h
    assumption
  · cases h
    assumption
  · cases h

/-- The shortest decimal of a double is read as the double. -/
theorem toFloat_decimal (h : Binary.ofFloat x = .finite false m e) (positive : 0 < m) :
    (decimal m e).toFloat = x := by
  unfold decimal
  rw [Binary.toFloat_of_ofFloat h]
  simp only
  cases found : (List.range' 1 17).findSome? (ofLength? x m e (point m e)) with
  | some d =>
    obtain ⟨count, _, taken⟩ := List.exists_of_findSome?_eq_some found
    exact Binary.eq_of_beq h positive (beq_of_ofLength? taken)
  | none =>
    have read := (exact m e).isNearest_toFloat
    rw [value_exact] at read
    exact read.unique (Binary.isNearest_self h)

theorem coefficient_decimal_ne_zero (h : Binary.ofFloat x = .finite false m e)
    (positive : 0 < m) : (decimal m e).coefficient ≠ 0 := by
  intro none
  have value : (decimal m e).value = (⟨0, 0⟩ : Decimal).value := by
    simp [Decimal.value, none]
  have zero : Binary.ofFloat (⟨0, 0⟩ : Decimal).toFloat = .finite false 0 (-1074) := by
    decide +kernel
  rw [← toFloat_decimal h positive, Decimal.toFloat_congr value, zero, Binary.finite.injEq] at h
  exact positive.ne h.2.1

end Shortest

end Reckoner
