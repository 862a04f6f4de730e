import ColumnIndex.Proofs.Number.DecimalTexts
import Mathlib.Order.Bounds.Basic

/-!
# How many digits a decimal number has

A rational number with a finite decimal form has a least count of digits before its point and a
least count behind it. The normal form of a decimal number has just these digits.

## Main definitions

* `HasDigits` — how many digits a number has before and behind its point.

## Main statements

* `Decimal.toRat_normalize` — a number and its normal form are the same number.
* `Decimal.hasDigits_normalize` — the normal form has no digit too many.
* `Decimal.normalize_eq_of_toRat` — there is one normal form.
-/
namespace ColumnIndex

/-- So many digits before the point, of which there is always one, and so many behind it are the
least with which the number can be written. -/
structure HasDigits (q : Rat) (whole fraction : Nat) : Prop where
  whole : IsLeast {k | 0 < k ∧ |q| < 10 ^ k} whole
  fraction : IsLeast {k | ∃ n : Int, q * 10 ^ k = n} fraction

namespace Decimal

variable {d : Decimal}

/-! ## The normal form -/

/-- A zero at the end counts nothing. -/
theorem trimZeros_div (coefficient scale : Nat) :
    ((trimZeros coefficient scale).1 / 10 ^ (trimZeros coefficient scale).2 : Rat)
      = coefficient / 10 ^ scale := by
  induction scale generalizing coefficient with
  | zero => rfl
  | succ scale ih =>
    unfold trimZeros
    split
    · rename_i hzero
      have hcoefficient : (coefficient : Rat) = (coefficient / 10 : Nat) * 10 := by
        have := Nat.div_add_mod coefficient 10
        exact_mod_cast (by omega : coefficient = coefficient / 10 * 10)
      rw [ih, hcoefficient, pow_succ, mul_div_mul_right _ _ ten_ne_zero]
    · rfl

/-- No zero is left at the end of a fraction. -/
theorem trimZeros_mod_ne (coefficient scale : Nat) (h : (trimZeros coefficient scale).2 ≠ 0) :
    (trimZeros coefficient scale).1 % 10 ≠ 0 := by
  induction scale generalizing coefficient with
  | zero => exact absurd rfl h
  | succ scale ih =>
    unfold trimZeros at h ⊢
    split
    · rename_i hzero
      rw [if_pos hzero] at h
      exact ih _ h
    · rename_i hzero
      exact hzero

theorem abs_toRat (d : Decimal) : |d.toRat| = d.coefficient / 10 ^ d.scale := by
  rw [toRat_eq_signed, abs_signed _ (by positivity)]

theorem abs_toRat_lt (d : Decimal) : |d.toRat| < 2 ^ 96 := by
  rw [abs_toRat]
  calc (d.coefficient : Rat) / 10 ^ d.scale ≤ d.coefficient :=
        div_le_self (by positivity) (one_le_pow₀ (by norm_num))
    _ < 2 ^ 96 := by exact_mod_cast d.coefficient_lt

theorem toRat_normalize (d : Decimal) : d.normalize.toRat = d.toRat := by
  have hmagnitude : (d.normalize.coefficient / 10 ^ d.normalize.scale : Rat)
      = d.coefficient / 10 ^ d.scale := trimZeros_div d.coefficient d.scale
  have hsign : d.normalize.negative = (d.negative && d.coefficient != 0) := rfl
  rw [toRat_eq_signed, toRat_eq_signed, hmagnitude, hsign]
  by_cases hzero : d.coefficient = 0
  · simp [hzero, signed]
  · have hne : (d.coefficient != 0) = true := bne_iff_ne.2 hzero
    rw [hne, Bool.and_true]

/-- A number whose normal form has a minus sign is not zero. -/
theorem coefficient_normalize_ne (h : d.normalize.negative) : d.normalize.coefficient ≠ 0 := by
  intro hzero
  have hvalue := toRat_normalize d
  rw [toRat_of_coefficient_zero hzero] at hvalue
  have habs := d.abs_toRat
  have hsign : d.normalize.negative = (d.negative && d.coefficient != 0) := rfl
  have hcoefficient : d.coefficient ≠ 0 := by
    rw [hsign, Bool.and_eq_true, bne_iff_ne] at h
    exact h.2
  have hpos : (0 : Rat) < d.coefficient / 10 ^ d.scale := by positivity
  rw [← hvalue, abs_zero] at habs
  exact hpos.ne habs

/-! ## The count of digits -/

/-- The digits before the point fit where the number does. -/
theorem length_wholeDigits_le_iff {limit : Nat} (hlimit : 0 < limit) :
    d.wholeDigits.length ≤ limit ↔ |d.toRat| < 10 ^ limit := by
  have hpower : 0 < 10 ^ d.scale := Nat.pow_pos (by decide)
  rw [wholeDigits, Text.digitsOf, Nat.length_toDigits_le_iff (by decide) hlimit,
    Nat.div_lt_iff_lt_mul hpower, abs_toRat, div_lt_iff₀ (by positivity)]
  exact_mod_cast Iff.rfl

/-- A number without zeros at its end cannot be written with fewer digits behind the point. -/
theorem scale_le_of_mul_eq {k : Nat} (hmod : d.scale ≠ 0 → d.coefficient % 10 ≠ 0) {n : Int}
    (h : d.toRat * 10 ^ k = n) : d.scale ≤ k := by
  by_contra hlt
  obtain ⟨more, hmore⟩ : ∃ more, d.scale = k + (more + 1) := ⟨d.scale - k - 1, by omega⟩
  have hvalue : (d.coefficient : Rat) = n.natAbs * 10 ^ (more + 1) := by
    have habs := d.abs_toRat
    have hten : (10 : Rat) ^ k ≠ 0 := by positivity
    have hquotient : |d.toRat| * 10 ^ k = n.natAbs := by
      have hpower : (0 : Rat) < 10 ^ k := by positivity
      rw [Nat.cast_natAbs, Int.cast_abs, ← h, abs_mul, abs_of_pos hpower]
    rw [habs, hmore, pow_add, div_mul_eq_mul_div, mul_comm ((10 : Rat) ^ k),
      mul_div_mul_right _ _ hten, div_eq_iff (by positivity)] at hquotient
    exact hquotient
  have hcoefficient : d.coefficient = n.natAbs * 10 ^ (more + 1) := by exact_mod_cast hvalue
  apply hmod (by omega)
  rw [hcoefficient, Nat.pow_succ, ← Nat.mul_assoc, Nat.mul_mod_left]

/-- The normal form has the digits that the number needs. -/
theorem hasDigits_normalize (d : Decimal) :
    HasDigits d.toRat d.normalize.wholeDigits.length d.normalize.fractionDigits.length := by
  have hpos : 0 < d.normalize.wholeDigits.length := List.length_pos_of_ne_nil (wholeDigits_ne_nil _)
  rw [← toRat_normalize, length_fractionDigits]
  refine ⟨⟨⟨hpos, (length_wholeDigits_le_iff hpos).1 le_rfl⟩, ?_⟩, ⟨?_, ?_⟩⟩
  · rintro k ⟨hk, hlt⟩
    exact (length_wholeDigits_le_iff hk).2 hlt
  · refine ⟨if d.normalize.negative then -d.normalize.coefficient else d.normalize.coefficient, ?_⟩
    rw [toRat, div_mul_cancel₀ _ (by positivity)]
  · rintro k ⟨n, hn⟩
    exact scale_le_of_mul_eq (trimZeros_mod_ne d.coefficient d.scale) hn

/-- A normal form has a minus sign where the number is negative. -/
theorem negative_normalize_iff (d : Decimal) : d.normalize.negative ↔ d.toRat < 0 := by
  rw [← toRat_normalize, toRat_eq_signed]
  have hnonneg : (0 : Rat) ≤ d.normalize.coefficient / 10 ^ d.normalize.scale := by positivity
  cases hsign : d.normalize.negative with
  | false => exact iff_of_false Bool.false_ne_true (not_lt.2 hnonneg)
  | true =>
    have hne : d.normalize.coefficient ≠ 0 := coefficient_normalize_ne hsign
    have hpos : (0 : Rat) < d.normalize.coefficient / 10 ^ d.normalize.scale := by positivity
    exact iff_of_true rfl (neg_lt_zero.2 hpos)

/-- A number has one normal form. -/
theorem normalize_eq_of_toRat {d' : Decimal} (h : d.toRat = d'.toRat) :
    d.normalize = d'.normalize := by
  have hscale : d.normalize.scale = d'.normalize.scale := by
    rw [← length_fractionDigits, ← length_fractionDigits]
    exact d.hasDigits_normalize.fraction.unique (h ▸ d'.hasDigits_normalize.fraction)
  have hcoefficient : d.normalize.coefficient = d'.normalize.coefficient := by
    have habs : |d.normalize.toRat| = |d'.normalize.toRat| := by
      rw [toRat_normalize, toRat_normalize, h]
    rw [abs_toRat, abs_toRat, hscale, div_left_inj' (by positivity)] at habs
    exact_mod_cast habs
  have hnegative : d.normalize.negative = d'.normalize.negative := by
    rw [Bool.eq_iff_iff, negative_normalize_iff, negative_normalize_iff, h]
  cases hd : d.normalize with
  | mk negative coefficient scale hlt hle =>
    cases hd' : d'.normalize with
    | mk negative' coefficient' scale' hlt' hle' =>
      rw [hd, hd'] at hscale hcoefficient hnegative
      cases hscale
      cases hcoefficient
      cases hnegative
      rfl

end Decimal

end ColumnIndex
