import Reckoner.Number.Text
import Reckoner.Proofs.Number.Shortest
import Reckoner.Proofs.Token.Spelling

/-!
# Written numbers read back

A number that is written without an exponent is a numeral, and reading it gives the number. With an
exponent it is a numeral, the letter `e`, a sign and digits, which is no numeral; nor is an infinity.
-/

set_option autoImplicit false

namespace Reckoner

open Float.Model (UnpackedFloat)
open Token (IsNumeral)

namespace Binary

def negated : Binary → Binary
  | .nan => .nan
  | .infinite negative => .infinite (!negative)
  | .finite negative significand exponent => .finite (!negative) significand exponent

theorem ofFloat_neg (x : Float) : ofFloat (-x) = (ofFloat x).negated := by
  have format := inFormat_ofFloat x
  have model : (-x).toModel = .pack x.toModel.unpack.neg := rfl
  rw [ofFloat_eq_ofUnpacked] at format ⊢
  rw [ofFloat_eq_ofUnpacked, model]
  cases unpacked : x.toModel.unpack with
  | notANumber => rfl
  | infinity sign | zero sign => cases sign <;> rfl
  | finite sign m e positive =>
    rw [unpacked] at format
    obtain ⟨small, low, high, full⟩ := format
    rcases Nat.lt_or_ge m (2 ^ 52) with few | leading
    · obtain rfl := full.resolve_left (Nat.not_le.2 few)
      rw [UnpackedFloat.neg, Rounding.unpack_pack_subnormal few]
      cases sign <;> rfl
    · rw [UnpackedFloat.neg, Rounding.unpack_pack_normal leading small low high]
      cases sign <;> rfl

end Binary

namespace Decimal

theorem positional_zeros (n : ℕ) : positional (List.replicate n '0') = 0 := by
  induction n with
  | zero => rfl
  | succ n ih =>
    have split : List.replicate (n + 1) '0' = ['0'] ++ List.replicate n '0' := rfl
    rw [split, positional_append, ih]
    simp [positional, digitValue]

theorem positional_digits (d : Decimal) : positional d.digits = d.coefficient := by
  rw [← digitsValue_eq_positional]
  exact Nat.ofDigitChars_toDigits (by decide) (by decide)

theorem isDigit_of_mem_digits {d : Decimal} {c : Char} (h : c ∈ d.digits) : c.isDigit = true :=
  Nat.isDigit_of_mem_toDigits (by decide) (by decide) h

theorem exists_zeros (d : Decimal) :
    ∃ n : ℕ, d.digits = d.significantDigits ++ List.replicate n '0' := by
  have parts := List.takeWhile_append_dropWhile (p := (· == '0')) (l := d.digits.reverse)
  have zeros : d.digits.reverse.takeWhile (· == '0') =
      List.replicate (d.digits.reverse.takeWhile (· == '0')).length '0' := by
    apply List.eq_replicate_iff.2
    refine ⟨rfl, fun c inside => ?_⟩
    simpa using List.mem_takeWhile_imp inside
  refine ⟨(d.digits.reverse.takeWhile (· == '0')).length, ?_⟩
  rw [significantDigits, ← List.reverse_replicate, ← zeros, ← List.reverse_append, parts,
    List.reverse_reverse]

theorem isDigit_of_mem_significantDigits {d : Decimal} {c : Char}
    (h : c ∈ d.significantDigits) : c.isDigit = true := by
  obtain ⟨n, digits⟩ := d.exists_zeros
  apply isDigit_of_mem_digits (d := d)
  rw [digits]
  exact List.mem_append_left _ h

theorem value_eq (d : Decimal) :
    d.value = positional d.significantDigits * 10 ^ (d.point - d.significantDigits.length) := by
  obtain ⟨n, digits⟩ := d.exists_zeros
  have coefficient : d.coefficient = positional d.significantDigits * 10 ^ n := by
    rw [← positional_digits, digits, positional_append, positional_zeros, List.length_replicate,
      Nat.add_zero]
  have exponent : d.point - d.significantDigits.length = n + d.exponent := by
    have length := congrArg List.length digits
    rw [List.length_append, List.length_replicate] at length
    rw [point, length]
    push_cast
    ring
  rw [value, coefficient, exponent, zpow_add₀ (by norm_num), zpow_natCast]
  push_cast
  ring

theorem significantDigits_ne_nil {d : Decimal} (h : d.coefficient ≠ 0) :
    d.significantDigits ≠ [] := by
  intro none
  obtain ⟨n, digits⟩ := d.exists_zeros
  apply h
  rw [← positional_digits, digits, none, List.nil_append, positional_zeros]

theorem value_ofNumeral_eq {numeral whole fraction : List Char}
    (digits : ∀ c ∈ whole, c.isDigit = true)
    (written : numeral = whole ∧ fraction = [] ∨ numeral = whole ++ '.' :: fraction) :
    (ofNumeral numeral).value = positional (whole ++ fraction) * 10 ^ (-(fraction.length : ℤ)) := by
  obtain ⟨taken, dropped⟩ := split_numeral digits rfl written
  simp only [value, ofNumeral, taken, List.drop_one, dropped, digitsValue_eq_positional]

end Decimal

namespace Number

theorem isDigit_of_mem_zeros {n : ℤ} {c : Char} (h : c ∈ zeros n) : c.isDigit = true := by
  rw [List.eq_of_mem_replicate h]
  rfl

/-- Digits on both sides of a point, or without it, are a numeral, whose value is that of all digits
shifted by those after the point. -/
theorem isNumeral_of_written {numeral : List Char} {value : ℚ} (whole fraction : List Char)
    (nonempty : whole ≠ []) (digits : ∀ c ∈ whole ++ fraction, c.isDigit = true)
    (written : numeral = whole ∧ fraction = [] ∨ numeral = whole ++ '.' :: fraction)
    (same : Decimal.positional (whole ++ fraction) * 10 ^ (-(fraction.length : ℤ)) = value) :
    IsNumeral numeral ∧ (Decimal.ofNumeral numeral).value = value := by
  obtain ⟨before, after⟩ := List.forall_mem_append.1 digits
  constructor
  · exact ⟨whole, fraction, nonempty, before, after, written.imp_left And.left⟩
  · rw [Decimal.value_ofNumeral_eq before written, same]

theorem isNumeral_positional {digits : List Char} (isDigit : ∀ c ∈ digits, c.isDigit = true)
    (nonempty : digits ≠ []) (point : ℤ) :
    IsNumeral (positional [] digits point) ∧
      (Decimal.ofNumeral (positional [] digits point)).value =
        Decimal.positional digits * 10 ^ (point - digits.length) := by
  have some : 0 < digits.length := List.length_pos_iff.2 nonempty
  unfold positional
  split
  · -- All digits stand after the point, with zeros before them.
    obtain ⟨n, rfl⟩ : ∃ n : ℕ, point = -n := ⟨(-point).toNat, by omega⟩
    have zeros : zeros (- -(n : ℤ)) = List.replicate n '0' := by
      rw [Number.zeros, neg_neg, Int.toNat_natCast]
    refine isNumeral_of_written ['0'] (List.replicate n '0' ++ digits)
      (List.cons_ne_nil _ _) ?_ (.inr (by rw [zeros]; rfl)) ?_
    · rw [← zeros]
      simp only [List.forall_mem_append, List.forall_mem_singleton]
      exact ⟨rfl, fun c => isDigit_of_mem_zeros, isDigit⟩
    · have value : Decimal.positional (['0'] ++ (List.replicate n '0' ++ digits)) =
          Decimal.positional digits := by
        have front : Decimal.positional ['0'] = 0 := rfl
        rw [Decimal.positional_append, Decimal.positional_append, Decimal.positional_zeros, front]
        ring
      rw [value, List.length_append, List.length_replicate]
      push_cast
      ring_nf
  · split
    · -- No digit stands after the point, and zeros may stand before it.
      obtain ⟨n, rfl⟩ : ∃ n : ℕ, point = digits.length + n :=
        ⟨(point - digits.length).toNat, by omega⟩
      have zeros : zeros (digits.length + n - digits.length) = List.replicate n '0' := by
        rw [Number.zeros, add_sub_cancel_left, Int.toNat_natCast]
      refine isNumeral_of_written (digits ++ List.replicate n '0') []
        (by simp [nonempty]) ?_ (.inl ⟨by rw [zeros, List.append_nil], rfl⟩) ?_
      · rw [List.append_nil, ← zeros]
        exact List.forall_mem_append.2 ⟨isDigit, fun c => isDigit_of_mem_zeros⟩
      · rw [List.append_nil, Decimal.positional_append, Decimal.positional_zeros,
          List.length_replicate, add_sub_cancel_left, zpow_natCast]
        simp
    · -- The point stands between two digits.
      obtain ⟨n, rfl⟩ : ∃ n : ℕ, point = n := ⟨point.toNat, by omega⟩
      rw [Int.toNat_natCast]
      refine isNumeral_of_written (digits.take n) (digits.drop n)
        ?_ ?_ (.inr rfl) ?_
      · rw [← List.length_pos_iff, List.length_take]
        omega
      · rwa [List.take_append_drop]
      · rw [List.take_append_drop, List.length_drop]
        congr 2
        omega

/-- A numeral, the letter `e`, a sign and digits. -/
def HasExponent (written : List Char) : Prop :=
  ∃ (mantissa digits : List Char) (sign : Char), written = mantissa ++ 'e' :: sign :: digits ∧
    IsNumeral mantissa ∧ (sign = '+' ∨ sign = '-') ∧ IsNumeral digits

theorem isNumeral_of_isDigit {digits : List Char} (isDigit : ∀ c ∈ digits, c.isDigit = true)
    (nonempty : digits ≠ []) : IsNumeral digits :=
  ⟨digits, [], nonempty, isDigit, by simp, .inl rfl⟩

theorem hasExponent_exponential {digits : List Char} (isDigit : ∀ c ∈ digits, c.isDigit = true)
    (nonempty : digits ≠ []) (point : ℤ) : HasExponent (exponential digits point) := by
  have places : ∀ c ∈ Nat.toDigits 10 (point - 1).natAbs, c.isDigit = true := by
    intro c inside
    exact Nat.isDigit_of_mem_toDigits (by decide) (by decide) inside
  have exponent : IsNumeral (zeros (2 - (Nat.toDigits 10 (point - 1).natAbs).length) ++
      Nat.toDigits 10 (point - 1).natAbs) := by
    apply isNumeral_of_isDigit
    · exact List.forall_mem_append.2 ⟨fun c => isDigit_of_mem_zeros, places⟩
    · exact List.append_ne_nil_of_right_ne_nil _ Nat.toDigits_ne_nil
  have sign : (if point - 1 < 0 then '-' else '+') = '+' ∨
      (if point - 1 < 0 then '-' else '+') = '-' := by
    split
    · exact .inr rfl
    · exact .inl rfl
  refine ⟨_, _, _, rfl, ?_, sign, exponent⟩
  split
  · rename_i first second rest
    obtain ⟨here, later⟩ := List.forall_mem_cons.1 isDigit
    exact ⟨[first], second :: rest, by simp, by simpa using here, later, .inr rfl⟩
  · exact isNumeral_of_isDigit isDigit nonempty

/-- What is written of a double without a sign reads back as the double, unless it has an exponent. -/
theorem reads_magnitude {x : Float} {m : ℕ} {e : ℤ} (h : Binary.ofFloat x = .finite false m e) :
    IsNumeral (magnitudeChars [] m e) ∧ (Decimal.ofNumeral (magnitudeChars [] m e)).toFloat = x ∨
      HasExponent (magnitudeChars [] m e) := by
  unfold magnitudeChars
  rcases Nat.eq_zero_or_pos m with rfl | positive
  · left
    rw [if_pos rfl]
    refine ⟨isNumeral_of_isDigit (by simp) (by simp), ?_⟩
    have least : e = -1074 := by
      have format := Binary.inFormat_ofFloat x
      rw [h] at format
      exact format.2.2.2.resolve_left (by norm_num)
    apply Binary.ofFloat_injective
    rw [h, least]
    decide +kernel
  · rw [if_neg positive.ne', decimalChars]
    have read := Shortest.toFloat_decimal h positive
    have nonempty :=
      Decimal.significantDigits_ne_nil (Shortest.coefficient_decimal_ne_zero h positive)
    have isDigit : ∀ c ∈ (Shortest.decimal m e).significantDigits, c.isDigit = true := by
      intro c
      exact Decimal.isDigit_of_mem_significantDigits
    split
    · left
      obtain ⟨numeral, value⟩ := isNumeral_positional isDigit nonempty (Shortest.decimal m e).point
      rw [← Decimal.value_eq] at value
      exact ⟨numeral, (Decimal.toFloat_congr value).trans read⟩
    · right
      exact hasExponent_exponential isDigit nonempty _

theorem chars_neg {x : Float} {m : ℕ} {e : ℤ} (h : Binary.ofFloat x = .finite false m e)
    (wholeMark : List Char) : chars wholeMark (-x) = '-' :: magnitudeChars wholeMark m e := by
  rw [chars, Binary.ofFloat_neg, h]
  rfl

theorem chars_neg_of_infinite {x : Float} (h : Binary.ofFloat x = .infinite false)
    (wholeMark : List Char) : chars wholeMark (-x) = ['-', 'i', 'n', 'f'] := by
  rw [chars, Binary.ofFloat_neg, h]
  rfl

end Number

end Reckoner
