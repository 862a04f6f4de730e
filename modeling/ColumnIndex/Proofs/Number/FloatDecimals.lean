import ColumnIndex.Proofs.Number.FloatTexts
import ColumnIndex.Proofs.Number.RoundedTexts
import ColumnIndex.Proofs.Number.ShortestDigits

/-!
# Floating-point numbers as decimal numbers

A number of double precision becomes the decimal number that its text is read as. Its shortest
digits always fit the coefficient of a decimal number, so nothing is lost but what stands behind
the last of twenty-eight fraction digits, and only a number that is too large is refused.

## Main definitions

* `Decimal.finest` — a magnitude with twenty-eight fraction digits.
* `BinaryFloat.decimalRat` — the shortest digits of a number as far as a decimal number has them.

Main statements: `BinaryFloat.toRat_toDecimal?`, `BinaryFloat.exists_toDecimal?_iff`.
-/
namespace ColumnIndex

/-- Half a unit more than a whole number has the same whole part. -/
theorem floor_add_half (n : Nat) : ⌊(n + 1 / 2 : Rat)⌋ = n := by
  rw [Int.floor_natCast_add]
  norm_num

/-- Rounding a quotient is rounding half a unit more down. -/
theorem cast_roundHalfUp (num : Nat) {den : Nat} (hden : 0 < den) :
    ((roundHalfUp num den : Nat) : Int) = ⌊(num / den + 1 / 2 : Rat)⌋ := by
  have hpos : (0 : Rat) < den := by exact_mod_cast hden
  have hlow : roundHalfUp num den * (2 * den) ≤ 2 * num + den :=
    (le_roundHalfUp_iff hden).1 le_rfl
  have hhigh : 2 * num + den < (roundHalfUp num den + 1) * (2 * den) := by
    rw [← not_le, ← le_roundHalfUp_iff hden]
    exact Nat.not_succ_le_self _
  have hsum : (num / den + 1 / 2 : Rat) = (2 * num + den) / (2 * den) := by
    field_simp
  rw [eq_comm, Int.floor_eq_iff, hsum, le_div_iff₀ (by positivity), div_lt_iff₀ (by positivity)]
  constructor
  · exact_mod_cast hlow
  · exact_mod_cast hhigh

/-- A magnitude with twenty-eight fraction digits, a half rounded up. -/
def Decimal.finest (q : Rat) : Rat := ⌊q * 10 ^ 28 + 1 / 2⌋ / 10 ^ 28

/-- With no more digits behind its point a number stays as it is. -/
theorem Decimal.finest_of_places (n : Nat) {places : Nat} (h : places ≤ 28) :
    finest (n / 10 ^ places) = n / 10 ^ places := by
  obtain ⟨more, hmore⟩ := Nat.exists_eq_add_of_le h
  have hwhole : (n / 10 ^ places * 10 ^ 28 : Rat) = (n * 10 ^ more : Nat) := by
    rw [hmore, pow_add]
    push_cast
    field_simp
  rw [finest, hwhole, floor_add_half, Int.cast_natCast, ← hwhole,
    mul_div_cancel_right₀ _ (by positivity)]

theorem Decimal.finest_nonneg {q : Rat} (hq : 0 ≤ q) : 0 ≤ finest q := by
  have hfloor : 0 ≤ ⌊q * 10 ^ 28 + 1 / 2⌋ := Int.floor_nonneg.2 (by positivity)
  unfold finest
  positivity

namespace PlainDecimal

variable {p : PlainDecimal} {d : Decimal}

/-- Digits that fit are rounded at the last place that there is. -/
theorem keptPlaces_eq (h : p.fraction = [] ∨ p.coefficient < 2 ^ 96) (hd : p.rounded? = some d) :
    Decimal.keptPlaces p.coefficient p.places = min 28 p.places := by
  refine Nat.findGreatest_eq ?_
  rcases h with hnil | hcoefficient
  · have hplaces : p.places = 0 := by rw [places, hnil, List.length_nil]
    have hsome : ¬ 2 ^ 96 ≤ roundHalfUp p.coefficient (10 ^ p.places) := by
      rw [← Decimal.rounded?_eq_none_iff, ← rounded?, hd]
      exact Option.some_ne_none d
    rw [hplaces] at hsome ⊢
    exact not_le.1 hsome
  · calc roundHalfUp p.coefficient (10 ^ (p.places - min 28 p.places))
        ≤ roundHalfUp (p.coefficient * 1) 1 := by
          rw [Nat.mul_one]
          exact roundHalfUp_anti _ Nat.one_pos (Nat.pow_pos (by decide))
      _ = p.coefficient := roundHalfUp_mul _ Nat.one_pos
      _ < 2 ^ 96 := hcoefficient

/-- A text with digits that fit loses only those behind the last fraction digit of a decimal
number. -/
theorem toRat_rounded (h : p.fraction = [] ∨ p.coefficient < 2 ^ 96) (hd : p.rounded? = some d) :
    d.toRat = signed p.sign.negative (Decimal.finest p.magnitude) := by
  have hkept := keptPlaces_eq h hd
  obtain ⟨hscale, hvalue⟩ := p.rounded?_eq_some hd
  rw [hkept] at hscale
  have hround : (p.roundedCoefficient : Rat) = ⌊p.magnitude * 10 ^ d.scale + 1 / 2⌋ := by
    rw [p.magnitude_mul_pow (by omega), ← cast_roundHalfUp _ (by positivity), roundedCoefficient,
      hkept, hscale, Int.cast_natCast]
  rw [hvalue, hround]
  congr 1
  rcases le_total p.places 28 with hfew | hmany
  · rw [hscale, min_eq_right hfew, magnitude, Decimal.finest_of_places _ hfew,
      div_mul_cancel₀ _ (by positivity), floor_add_half, Int.cast_natCast]
  · rw [hscale, min_eq_left hmany, Decimal.finest]

end PlainDecimal

namespace BinaryFloat

/-- The shortest digits of a number, without its sign, as far as a decimal number has them. -/
def decimalRat {F : FloatFormat} (x : BinaryFloat F) : Rat := Decimal.finest x.writtenRat

theorem decimalRat_nonneg {F : FloatFormat} (x : BinaryFloat F) : 0 ≤ x.decimalRat :=
  Decimal.finest_nonneg x.writtenRat_nonneg

/-- The parts of the text that is read: behind a point there are few digits. -/
theorem exists_rounded {y : Double} (hy : y.isFinite) :
    ∃ p : PlainDecimal, (Numeric.fractional y).toDecimal? = p.rounded? ∧
      p.sign.negative = y.negative ∧ p.magnitude = y.writtenRat ∧
        (p.fraction = [] ∨ p.coefficient ≤ 10 ^ 18) := by
  obtain ⟨p, hsign, hchars, hmagnitude, hdigits⟩ := exists_parts hy
  have hspelled : p.IsSpelledBy y.plainText := by
    refine ⟨[], [], List.forall_mem_nil _, ?_⟩
    rw [plainText, text, String.toList_ofList, hchars, List.nil_append, List.append_nil]
  have hread : (Numeric.fractional y).toDecimal? = p.rounded? := by
    rw [Numeric.toDecimal?, if_pos hy, p.parse?_decimal hspelled]
  have hnegative : p.sign.negative = y.negative := by
    rw [hsign]
    cases y.negative with
    | true => rfl
    | false => rfl
  refine ⟨p, hread, hnegative, hmagnitude, or_iff_not_imp_left.2 fun hfraction => ?_⟩
  obtain ⟨hcode, hcoefficient⟩ := hdigits hfraction
  rw [hcoefficient]
  exact FloatFormat.coefficient_shortest_le (by decide) (by decide) .up hcode

/-- A finite number becomes a decimal number that has its shortest digits, but for those behind the
last fraction digit that there is. -/
theorem toRat_toDecimal? {y : Double} (hy : y.isFinite) {d : Decimal}
    (hd : (Numeric.fractional y).toDecimal? = some d) :
    d.toRat = signed y.negative y.decimalRat := by
  obtain ⟨p, hread, hnegative, hmagnitude, hfew⟩ := exists_rounded hy
  rw [hread] at hd
  have hfits : p.fraction = [] ∨ p.coefficient < 2 ^ 96 := hfew.imp_right fun h => by omega
  rw [PlainDecimal.toRat_rounded hfits hd, hnegative, hmagnitude, decimalRat]

/-- A finite number becomes a decimal number unless it is too large for one. -/
theorem exists_toDecimal?_iff {y : Double} (hy : y.isFinite) :
    (∃ d, (Numeric.fractional y).toDecimal? = some d) ↔ y.decimalRat < 2 ^ 96 := by
  constructor
  · rintro ⟨d, hd⟩
    have habs := d.abs_toRat_lt
    rwa [toRat_toDecimal? hy hd, abs_signed _ y.decimalRat_nonneg] at habs
  · intro hlimit
    obtain ⟨p, hread, -, hmagnitude, hfew⟩ := exists_rounded hy
    rw [hread, ← Option.ne_none_iff_exists', Ne, p.rounded?_eq_none_iff, not_le]
    rcases hfew with hfraction | hfew
    · have hwhole : p.magnitude = p.coefficient := by
        rw [PlainDecimal.magnitude, PlainDecimal.places, hfraction, List.length_nil, pow_zero,
          div_one]
      have hkept := Decimal.finest_of_places p.coefficient (Nat.zero_le 28)
      rw [pow_zero, div_one] at hkept
      rw [decimalRat, ← hmagnitude, hwhole, hkept] at hlimit
      have hstep : (p.coefficient : Rat) + 1 ≤ 2 ^ 96 := by exact_mod_cast hlimit
      rw [hwhole]
      linarith
    · have hmost : (p.coefficient : Rat) ≤ 10 ^ 18 := by exact_mod_cast hfew
      have hless : p.magnitude ≤ p.coefficient :=
        div_le_self (by positivity) (one_le_pow₀ (by norm_num))
      linarith

end BinaryFloat

end ColumnIndex
