import Mathlib
import Reckoner.Number.Binary

/-!
# The nearest double

The finite doubles are multiples of powers of two: `k · 2 ^ e` with `|k| ≤ 2 ^ 53` and `-1074 ≤ e`. A
number is rounded to the double at the least distance, and of two such to the one with the even
significand. In this an infinity counts as the power of two that comes after the largest double.
-/

set_option autoImplicit false

namespace Reckoner

namespace Binary

def signed (negative : Bool) (x : ℚ) : ℚ := if negative then -x else x

/-- The number that distances to the double are measured from. -/
def place? : Binary → Option ℚ
  | .nan => none
  | .infinite negative => some (signed negative (2 ^ 1024))
  | .finite negative significand exponent => some (signed negative (significand * 2 ^ exponent))

def hasSign : Binary → Bool
  | .nan => false
  | .infinite negative | .finite negative _ _ => negative

def isEven : Binary → Bool
  | .nan | .infinite _ => true
  | .finite _ significand _ => significand % 2 == 0

end Binary

/-- The double is what a number that is not negative is rounded to. -/
structure IsNearest (x : ℚ) (y : Float) : Prop where
  unsigned : (Binary.ofFloat y).hasSign = false
  exists_place : ∃ v : ℚ, (Binary.ofFloat y).place? = some v ∧
    ∀ (z : Float) (w : ℚ), (Binary.ofFloat z).place? = some w →
      |v - x| < |w - x| ∨ |v - x| = |w - x| ∧ (v = w ∨ (Binary.ofFloat y).isEven = true)

/-- The place of infinity is the next multiple of the largest unit. -/
theorem two_pow_eq_mul : (2 : ℚ) ^ 1024 = 2 ^ 53 * 2 ^ (971 : ℤ) := by
  rw [← zpow_natCast, ← zpow_natCast, ← zpow_add₀ two_ne_zero]
  norm_num

namespace Binary

/-- A significand has 53 bits, and all of them unless the exponent is the least. -/
def InFormat : Binary → Prop
  | .nan | .infinite _ => True
  | .finite _ significand exponent =>
    significand < 2 ^ 53 ∧ -1074 ≤ exponent ∧ exponent ≤ 971 ∧
      (2 ^ 52 ≤ significand ∨ exponent = -1074)

theorem inFormat_ofFloat (x : Float) : (ofFloat x).InFormat := by
  have fraction : x.toBits.toNat % Nat.pow 2 52 < 2 ^ 52 := Nat.mod_lt _ (by decide)
  have field : x.toBits.toNat / Nat.pow 2 52 % Nat.pow 2 11 < 2 ^ 11 := Nat.mod_lt _ (by decide)
  have leading : Nat.pow 2 52 = 2 ^ 52 := rfl
  have full : Nat.pow 2 11 - 1 = 2 ^ 11 - 1 := rfl
  simp only [ofFloat]
  generalize x.toBits.toNat / Nat.pow 2 52 % Nat.pow 2 11 = exponent at field ⊢
  generalize x.toBits.toNat % Nat.pow 2 52 = significand at fraction ⊢
  rw [leading, full]
  split
  · split <;> trivial
  · split
    · exact ⟨by omega, by omega, by omega, .inr rfl⟩
    · exact ⟨by omega, by omega, by omega, .inl (by omega)⟩

/-- The places of doubles are multiples of powers of two, up to the place of the infinities. -/
theorem exists_multiple_of_place? {x : Float} {w : ℚ} (h : (ofFloat x).place? = some w) :
    ∃ k e : ℤ, |k| ≤ 2 ^ 53 ∧ -1074 ≤ e ∧ e ≤ 971 ∧ w = k * 2 ^ e := by
  have format := inFormat_ofFloat x
  cases taken : ofFloat x with
  | nan => simp [taken, place?] at h
  | infinite negative =>
    rw [taken, place?, Option.some.injEq] at h
    subst h
    cases negative
    · exact ⟨2 ^ 53, 971, by norm_num, by norm_num, le_rfl, by norm_num [signed, two_pow_eq_mul]⟩
    · exact ⟨-2 ^ 53, 971, by norm_num, by norm_num, le_rfl, by norm_num [signed, two_pow_eq_mul]⟩
  | finite negative significand exponent =>
    rw [taken, place?, Option.some.injEq] at h
    rw [taken] at format
    obtain ⟨below, low, high, _⟩ := format
    subst h
    have bound : |(significand : ℤ)| ≤ 2 ^ 53 := by
      rw [abs_of_nonneg (by positivity)]
      exact_mod_cast below.le
    cases negative
    · exact ⟨significand, exponent, bound, low, high, by simp [signed]⟩
    · exact ⟨-significand, exponent, by rwa [abs_neg], low, high, by simp [signed]⟩

end Binary

section Grid

variable {x : ℚ} {k : ℕ} {t : ℤ}

theorem exists_multiple_of_le (j : ℤ) {e : ℤ} (coarse : t ≤ e) :
    ∃ i : ℤ, (j : ℚ) * 2 ^ e = i * 2 ^ t := by
  have shift : e = ((e - t).toNat : ℤ) + t := by omega
  refine ⟨j * 2 ^ (e - t).toNat, ?_⟩
  push_cast
  rw [mul_assoc, ← zpow_natCast, ← zpow_add₀ two_ne_zero, ← shift]

/-- Multiples of a smaller unit do not get beyond the least multiple with all bits. -/
theorem multiple_le_of_lt {j e : ℤ} (bound : |j| ≤ 2 ^ 53) (fine : e < t) :
    (j : ℚ) * 2 ^ e ≤ 2 ^ 52 * 2 ^ t := by
  have small : (2 : ℚ) ^ e ≤ 2 ^ (t - 1) := zpow_le_zpow_right₀ one_le_two (by omega)
  have few : (j : ℚ) ≤ 2 ^ 53 := by exact_mod_cast (le_abs_self j).trans bound
  have half : (2 : ℚ) ^ t = 2 * 2 ^ (t - 1) := by
    rw [zpow_sub_one₀ two_ne_zero]
    ring
  calc (j : ℚ) * 2 ^ e ≤ 2 ^ 53 * 2 ^ (t - 1) := by gcongr
    _ = 2 ^ 52 * 2 ^ t := by
      rw [half]
      ring

theorem nearest_multiple (near : |(k : ℚ) * 2 ^ t - x| ≤ 2 ^ t / 2)
    (tie : |(k : ℚ) * 2 ^ t - x| = 2 ^ t / 2 → Even k) (j : ℤ) :
    |(k : ℚ) * 2 ^ t - x| < |(j : ℚ) * 2 ^ t - x| ∨
      |(k : ℚ) * 2 ^ t - x| = |(j : ℚ) * 2 ^ t - x| ∧
        ((k : ℚ) * 2 ^ t = j * 2 ^ t ∨ Even k) := by
  have unit : (0 : ℚ) < 2 ^ t := by positivity
  by_cases same : j = k
  · subst same
    exact .inr ⟨rfl, .inl rfl⟩
  · -- Another multiple is at least one unit away from this one, so half a unit from the number.
    have apart : (2 : ℚ) ^ t ≤ |(j : ℚ) * 2 ^ t - k * 2 ^ t| := by
      have one : (1 : ℤ) ≤ |j - k| := Int.one_le_abs (sub_ne_zero.2 same)
      rw [← sub_mul, abs_mul, abs_of_pos unit]
      exact le_mul_of_one_le_left unit.le (by exact_mod_cast one)
    have far : (2 : ℚ) ^ t / 2 ≤ |(j : ℚ) * 2 ^ t - x| := by
      have triangle := abs_sub_le ((j : ℚ) * 2 ^ t) x (k * 2 ^ t)
      rw [abs_sub_comm x] at triangle
      linarith
    rcases lt_or_eq_of_le (near.trans far) with nearer | equal
    · exact .inl nearer
    · exact .inr ⟨equal, .inr (tie (by linarith))⟩

/-- No place of the grid is nearer than the multiple of the unit that is rounded to, if the number is
large enough for the unit. -/
theorem nearest_of_near (near : |(k : ℚ) * 2 ^ t - x| ≤ 2 ^ t / 2)
    (tie : |(k : ℚ) * 2 ^ t - x| = 2 ^ t / 2 → Even k)
    (large : t = -1074 ∨ 2 ^ 52 * 2 ^ t ≤ x) {j e : ℤ} (bound : |j| ≤ 2 ^ 53) (low : -1074 ≤ e) :
    |(k : ℚ) * 2 ^ t - x| < |(j : ℚ) * 2 ^ e - x| ∨
      |(k : ℚ) * 2 ^ t - x| = |(j : ℚ) * 2 ^ e - x| ∧
        ((k : ℚ) * 2 ^ t = j * 2 ^ e ∨ Even k) := by
  rcases le_or_gt t e with coarse | fine
  · obtain ⟨i, multiple⟩ := exists_multiple_of_le j coarse
    rw [multiple]
    exact nearest_multiple near tie i
  · -- The place lies below the least multiple with all bits, which is not above the number.
    have above : (2 : ℚ) ^ 52 * 2 ^ t ≤ x := large.resolve_left (by omega)
    have below : (j : ℚ) * 2 ^ e ≤ 2 ^ 52 * 2 ^ t := multiple_le_of_lt bound fine
    obtain ⟨least, cast⟩ : ∃ least : ℤ, (least : ℚ) = 2 ^ 52 := ⟨2 ^ 52, by norm_num⟩
    have leading := nearest_multiple near tie least
    rw [cast] at leading
    have distance : |(2 : ℚ) ^ 52 * 2 ^ t - x| = x - 2 ^ 52 * 2 ^ t := by
      rw [abs_sub_comm]
      exact abs_of_nonneg (by linarith)
    have distance' : |(j : ℚ) * 2 ^ e - x| = x - j * 2 ^ e := by
      rw [abs_sub_comm]
      exact abs_of_nonneg (by linarith)
    rw [distance] at leading
    rw [distance']
    rcases lt_or_eq_of_le below with less | equal
    · left
      rcases leading with nearer | ⟨equal, _⟩ <;> linarith
    · rw [equal]
      exact leading

end Grid

/-- The number is rounded to a multiple of a unit: to a nearest one, and to an even one if two are
nearest. The unit is the least of all, or one for which the number needs 53 bits. -/
structure RoundsTo (x : ℚ) (k : ℕ) (t : ℤ) : Prop where
  low : -1074 ≤ t
  bound : k ≤ 2 ^ 53
  full : 2 ^ 52 ≤ k ∨ t = -1074
  near : |(k : ℚ) * 2 ^ t - x| ≤ 2 ^ t / 2
  tie : |(k : ℚ) * 2 ^ t - x| = 2 ^ t / 2 → Even k
  large : t = -1074 ∨ 2 ^ 52 * 2 ^ t ≤ x

namespace Binary

def bounded (significand : ℕ) (exponent : ℤ) : Binary :=
  if 971 < exponent then .infinite false else .finite false significand exponent

/-- The double of a multiple. One that needs 54 bits is a power of two and stands in the next unit. -/
def ofMultiple (k : ℕ) (t : ℤ) : Binary :=
  if k < 2 ^ 53 then bounded k t else bounded (2 ^ 52) (t + 1)

variable {k : ℕ} {t : ℤ}

theorem hasSign_bounded (significand : ℕ) (exponent : ℤ) :
    (bounded significand exponent).hasSign = false := by
  unfold bounded
  split <;> rfl

theorem hasSign_ofMultiple (k : ℕ) (t : ℤ) : (ofMultiple k t).hasSign = false := by
  unfold ofMultiple
  split <;> exact hasSign_bounded _ _

theorem ofMultiple_of_large (h : 971 < t) : ofMultiple k t = .infinite false := by
  have next : 971 < t + 1 := by omega
  simp only [ofMultiple, bounded, if_pos h, if_pos next, ite_self]

theorem place?_ofMultiple (h : t ≤ 971) (bound : k ≤ 2 ^ 53) :
    (ofMultiple k t).place? = some ((k : ℚ) * 2 ^ t) := by
  unfold ofMultiple bounded
  split
  · rw [if_neg (by omega)]
    simp [place?, signed]
  · have power : k = 2 ^ 53 := by omega
    subst power
    have carried : (2 : ℚ) ^ 53 * 2 ^ t = 2 ^ 52 * 2 ^ (t + 1) := by
      rw [zpow_add_one₀ two_ne_zero]
      ring
    split
    · obtain rfl : t = 971 := by omega
      simp only [place?, signed, two_pow_eq_mul]
      norm_num
    · simp only [place?, signed, Nat.cast_pow, Nat.cast_ofNat, carried]
      rfl

theorem isEven_ofMultiple (h : Even k) : (ofMultiple k t).isEven = true := by
  unfold ofMultiple bounded
  split
  · split
    · rfl
    · simpa [isEven] using Nat.even_iff.1 h
  · split <;> rfl

end Binary

theorem Binary.place_le {z : Float} {w : ℚ} (here : (ofFloat z).place? = some w) :
    w ≤ 2 ^ 1024 := by
  obtain ⟨j, e, inside, _, high, rfl⟩ := exists_multiple_of_place? here
  have few : (j : ℚ) ≤ 2 ^ 53 := by exact_mod_cast (le_abs_self j).trans inside
  have unit : (2 : ℚ) ^ e ≤ 2 ^ (971 : ℤ) := zpow_le_zpow_right₀ one_le_two high
  rw [two_pow_eq_mul]
  gcongr

theorem isNearest_of_infinite {x : ℚ} {y : Float} (above : 2 ^ 1024 ≤ x)
    (taken : Binary.ofFloat y = .infinite false) : IsNearest x y := by
  refine ⟨by rw [taken]; rfl, 2 ^ 1024, by rw [taken]; rfl, fun z w here => ?_⟩
  have below : w ≤ 2 ^ 1024 := Binary.place_le here
  rw [abs_sub_comm, abs_of_nonneg (sub_nonneg.2 above), abs_sub_comm w,
    abs_of_nonneg (sub_nonneg.2 (below.trans above))]
  rcases lt_or_eq_of_le below with less | equal
  · exact .inl (sub_lt_sub_left less x)
  · exact .inr ⟨by rw [equal], .inl equal.symm⟩

section RoundsTo

variable {x : ℚ} {k : ℕ} {t : ℤ}

/-- Only from the place of infinity on are numbers rounded to multiples of larger units. -/
theorem RoundsTo.two_pow_le (h : RoundsTo x k t) (beyond : 971 < t) : 2 ^ 1024 ≤ x := by
  have unit : (2 : ℚ) ^ (972 : ℤ) ≤ 2 ^ t := zpow_le_zpow_right₀ one_le_two (by omega)
  calc (2 : ℚ) ^ 1024 = 2 ^ 52 * 2 ^ (972 : ℤ) := by
        rw [two_pow_eq_mul, ← zpow_natCast, ← zpow_natCast, ← zpow_add₀ two_ne_zero,
          ← zpow_add₀ two_ne_zero]
        norm_num
    _ ≤ 2 ^ 52 * 2 ^ t := by gcongr
    _ ≤ x := h.large.resolve_left (by omega)

/-- The double of the multiple that a number is rounded to is nearest to that number. -/
theorem isNearest_of_roundsTo {y : Float} (h : RoundsTo x k t)
    (taken : Binary.ofFloat y = .ofMultiple k t) : IsNearest x y := by
  by_cases beyond : 971 < t
  · rw [Binary.ofMultiple_of_large beyond] at taken
    exact isNearest_of_infinite (h.two_pow_le beyond) taken
  · have unsigned : (Binary.ofFloat y).hasSign = false := taken ▸ Binary.hasSign_ofMultiple k t
    refine ⟨unsigned, (k : ℚ) * 2 ^ t,
      taken ▸ Binary.place?_ofMultiple (Int.not_lt.1 beyond) h.bound, fun z w here => ?_⟩
    obtain ⟨j, e, inside, above, _, rfl⟩ := Binary.exists_multiple_of_place? here
    have even (even : Even k) := taken ▸ Binary.isEven_ofMultiple (t := t) even
    exact (nearest_of_near h.near h.tie h.large inside above).imp_right
      (And.imp_right (Or.imp_right even))

theorem RoundsTo.eq {j e : ℤ} (h : RoundsTo (j * 2 ^ e) k t) (bound : |j| ≤ 2 ^ 53)
    (low : -1074 ≤ e) : (k : ℚ) * 2 ^ t = j * 2 ^ e := by
  have nearest := nearest_of_near h.near h.tie h.large bound low
  rw [sub_self, abs_zero] at nearest
  rcases nearest with less | ⟨equal, _⟩
  · exact absurd less (abs_nonneg _).not_gt
  · exact sub_eq_zero.1 (abs_eq_zero.1 equal)

/-- Up to half of the least unit a number is rounded to zero. -/
theorem roundsTo_zero (nonneg : 0 ≤ x) (small : x ≤ 2 ^ (-1074 : ℤ) / 2) :
    RoundsTo x 0 (-1074) where
  low := le_rfl
  bound := by norm_num
  full := .inr rfl
  near := by
    rw [Nat.cast_zero, zero_mul, zero_sub, abs_neg, abs_of_nonneg nonneg]
    exact small
  tie := fun _ => Even.zero
  large := .inl rfl

end RoundsTo

end Reckoner
