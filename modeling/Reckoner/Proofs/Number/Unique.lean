import Reckoner.Proofs.Number.Rounding

/-!
# There is only one nearest double

Among the doubles without a sign each has a place of its own. So two nearest ones would lie at the same
distance on both sides of the number and have even significands. Then the double that comes after the
lower one lies between them, and nearer than both.
-/

set_option autoImplicit false

namespace Reckoner

open Float.Model (UnpackedFloat)
open Float.Model.UnpackedFloat (Sign)

namespace Binary

theorem isNegative_injective : Function.Injective isNegative := by
  rintro (_ | _) (_ | _) h <;> first | rfl | cases h

theorem ofUnpacked_injective : Function.Injective ofUnpacked := by
  intro u u' h
  cases u <;> cases u' <;> simp_all [ofUnpacked, isNegative_injective.eq_iff] <;> omega

theorem ofFloat_injective : Function.Injective ofFloat := by
  intro x y h
  rw [ofFloat_eq_ofUnpacked, ofFloat_eq_ofUnpacked] at h
  have bits := (UnpackedFloat.unpack_inj_of_valid x.toModel.valid y.toModel.valid).1
    (ofUnpacked_injective h)
  exact Float.toBits_inj.1 (UInt64.eq_of_toBitVec_eq bits)

section Places

variable {m m' : ℕ} {e e' : ℤ} {v w : ℚ}

/-- A significand with all its bits outweighs every one of a lesser exponent. -/
theorem place_lt_of_lt (small : m < 2 ^ 53) (full : 2 ^ 52 ≤ m') (less : e < e') :
    (m : ℚ) * 2 ^ e < m' * 2 ^ e' := by
  have few : (m : ℚ) < 2 ^ 53 := by exact_mod_cast small
  have many : (2 : ℚ) ^ 52 ≤ m' := by exact_mod_cast full
  have power : (2 : ℚ) ^ (e + 1) ≤ 2 ^ e' := zpow_le_zpow_right₀ one_le_two less
  calc (m : ℚ) * 2 ^ e < 2 ^ 53 * 2 ^ e := by gcongr
    _ = 2 ^ 52 * 2 ^ (e + 1) := by
      rw [zpow_add_one₀ two_ne_zero]
      ring
    _ ≤ m' * 2 ^ e' := by gcongr

theorem not_lt_of_place_eq (format : (finite false m e).InFormat)
    (format' : (finite false m' e').InFormat) (equal : (m : ℚ) * 2 ^ e = m' * 2 ^ e') :
    ¬ e < e' := by
  intro less
  have full : 2 ^ 52 ≤ m' := format'.2.2.2.resolve_right (by have := format.2.1; omega)
  exact (place_lt_of_lt format.1 full less).ne equal

theorem place_lt_infinite (format : (finite false m e).InFormat) :
    (m : ℚ) * 2 ^ e < 2 ^ 1024 := by
  obtain ⟨small, _, high, _⟩ := format
  have power : (2 : ℚ) ^ e ≤ 2 ^ (971 : ℤ) := zpow_le_zpow_right₀ one_le_two high
  have few : (m : ℚ) < 2 ^ 53 := by exact_mod_cast small
  rw [two_pow_eq_mul]
  calc (m : ℚ) * 2 ^ e ≤ m * 2 ^ (971 : ℤ) := mul_le_mul_of_nonneg_left power (Nat.cast_nonneg m)
    _ < 2 ^ 53 * 2 ^ (971 : ℤ) := mul_lt_mul_of_pos_right few (zpow_pos two_pos 971)

theorem eq_of_place?_eq {b c : Binary} (format : b.InFormat) (format' : c.InFormat)
    (unsigned : b.hasSign = false) (unsigned' : c.hasSign = false) (here : b.place? = some v)
    (here' : c.place? = some v) : b = c := by
  cases b <;> cases c <;> simp only [place?, hasSign, Option.some.injEq, reduceCtorEq] at *
  all_goals subst unsigned unsigned'
  all_goals simp only [signed, Bool.false_eq_true, if_false] at here here'
  case infinite.infinite => rfl
  case infinite.finite => exact absurd (here'.trans here.symm) (place_lt_infinite format').ne
  case finite.infinite => exact absurd (here.trans here'.symm) (place_lt_infinite format).ne
  case finite.finite m e m' e' =>
    have equal := here.trans here'.symm
    obtain rfl : e = e' := by
      have := not_lt_of_place_eq format format' equal
      have := not_lt_of_place_eq format' format equal.symm
      omega
    have power : (2 : ℚ) ^ e ≠ 0 := by positivity
    obtain rfl : m = m' := by exact_mod_cast mul_right_cancel₀ power equal
    rfl

/-- Above a double no place comes before the next multiple of its unit. -/
theorem next_le {z : Float} (full : 2 ^ 52 ≤ m ∨ e = -1074) (here : (ofFloat z).place? = some w)
    (above : (m : ℚ) * 2 ^ e < w) : ((m + 1 : ℕ) : ℚ) * 2 ^ e ≤ w := by
  have power : (0 : ℚ) < 2 ^ e := by positivity
  obtain ⟨j, f, bound, low, _, rfl⟩ := exists_multiple_of_place? here
  rcases le_or_gt e f with coarse | fine
  · obtain ⟨i, multiple⟩ := exists_multiple_of_le j coarse
    rw [multiple] at above ⊢
    have more : (m : ℤ) < i := by exact_mod_cast lt_of_mul_lt_mul_right above power.le
    have next : ((m + 1 : ℕ) : ℚ) ≤ i := by exact_mod_cast more
    gcongr
  · have many : (2 : ℚ) ^ 52 ≤ m := by exact_mod_cast full.resolve_right (by omega)
    have below : (j : ℚ) * 2 ^ f ≤ m * 2 ^ e :=
      (multiple_le_of_lt bound fine).trans (by gcongr)
    exact absurd above below.not_gt

/-- Between two doubles with even significands there is a third. -/
theorem exists_between {y z : Float} (unsigned : (ofFloat y).hasSign = false)
    (unsigned' : (ofFloat z).hasSign = false) (even : (ofFloat y).isEven = true)
    (even' : (ofFloat z).isEven = true) (here : (ofFloat y).place? = some v)
    (here' : (ofFloat z).place? = some w) (less : v < w) :
    ∃ (u : Float) (p : ℚ), (ofFloat u).place? = some p ∧ v < p ∧ p < w := by
  have format := inFormat_ofFloat y
  cases taken : ofFloat y with
  | nan => simp [taken, place?] at here
  | infinite negative =>
    rw [taken] at unsigned here
    obtain rfl : negative = false := unsigned
    obtain rfl : 2 ^ 1024 = v := Option.some.inj here
    exact absurd less (place_le here').not_gt
  | finite negative m e =>
    rw [taken] at unsigned even here format
    obtain rfl : negative = false := unsigned
    obtain rfl : (m : ℚ) * 2 ^ e = v := Option.some.inj here
    obtain ⟨small, low, high, full⟩ := format
    have parity : m % 2 = 0 := by simpa [isEven] using even
    have room : m + 1 < 2 ^ 53 := by omega
    -- The successor has an odd significand, so it is not the other double.
    obtain ⟨u, next⟩ : ∃ u : Float, ofFloat u = .finite false (m + 1) e := by
      refine ⟨.ofModel (.pack (Rounding.ofMultiple (m + 1) e)), ?_⟩
      rw [Rounding.ofFloat_pack_ofMultiple low room.le (full.imp_left (by omega)), ofMultiple,
        if_pos room, bounded, if_neg (by omega)]
    have place : (ofFloat u).place? = some (((m + 1 : ℕ) : ℚ) * 2 ^ e) := by
      rw [next]
      rfl
    have after : (m : ℚ) * 2 ^ e < ((m + 1 : ℕ) : ℚ) * 2 ^ e := by
      gcongr
      exact Nat.lt_succ_self m
    refine ⟨u, _, place, after, ?_⟩
    apply lt_of_le_of_ne (next_le full here' less)
    intro equal
    have same : ofFloat u = ofFloat z :=
      eq_of_place?_eq (inFormat_ofFloat u) (inFormat_ofFloat z) (by rw [next]; rfl) unsigned' place
        (equal ▸ here')
    rw [← same, next] at even'
    have odd : (m + 1) % 2 = 0 := by simpa [isEven] using even'
    omega

end Places

end Binary

theorem abs_sub_lt_of_between {v p w x : ℚ} (distance : |v - x| = |w - x|) (left : v < p)
    (right : p < w) : |p - x| < |v - x| := by
  rcases abs_eq_abs.1 distance with equal | opposite
  · linarith
  · have below : v - x < 0 := by linarith
    rw [abs_of_neg below, abs_lt]
    constructor <;> linarith

/-- Of two nearest doubles none lies above the other: the successor of the lower one would be nearer. -/
theorem IsNearest.place_le {x v w : ℚ} {y z : Float} (h : IsNearest x y) (h' : IsNearest x z)
    (here : (Binary.ofFloat y).place? = some v) (here' : (Binary.ofFloat z).place? = some w) :
    w ≤ v := by
  obtain ⟨unsigned, v, same, nearest⟩ := h
  obtain rfl := Option.some.inj (same.symm.trans here)
  obtain ⟨unsigned', w, same', nearest'⟩ := h'
  obtain rfl := Option.some.inj (same'.symm.trans here')
  by_contra above
  have less : v < w := not_le.1 above
  have forward := nearest z w here'
  have backward := nearest' y v here
  have distance : |v - x| = |w - x| := by
    rcases forward with closer | ⟨equal, _⟩
    · rcases backward with closer' | ⟨equal, _⟩
      · exact absurd closer' closer.not_gt
      · exact equal.symm
    · exact equal
  have even : (Binary.ofFloat y).isEven = true :=
    (forward.resolve_left distance.not_lt).2.resolve_left less.ne
  have even' : (Binary.ofFloat z).isEven = true :=
    (backward.resolve_left distance.not_gt).2.resolve_left less.ne'
  obtain ⟨u, p, place, left, right⟩ :=
    Binary.exists_between unsigned unsigned' even even' here here' less
  have nearer := abs_sub_lt_of_between distance left right
  rcases nearest u p place with farther | ⟨equal, _⟩
  · exact absurd farther nearer.not_gt
  · exact nearer.ne' equal

theorem IsNearest.unique {x : ℚ} {y z : Float} (h : IsNearest x y) (h' : IsNearest x z) :
    y = z := by
  obtain ⟨v, here, _⟩ := h.exists_place
  obtain ⟨w, here', _⟩ := h'.exists_place
  obtain rfl := le_antisymm (h'.place_le h here' here) (h.place_le h' here here')
  apply Binary.ofFloat_injective
  exact Binary.eq_of_place?_eq (Binary.inFormat_ofFloat y) (Binary.inFormat_ofFloat z) h.unsigned
    h'.unsigned here here'

end Reckoner
