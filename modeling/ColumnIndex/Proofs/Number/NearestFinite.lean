import ColumnIndex.Proofs.Number.Order
import ColumnIndex.Proofs.Number.Reading

/-!
# Finite numbers that are nearest

`x.IsNearest q` says that a finite number without a minus sign is the one nearest to `q`. Up to the
midpoint above the greatest finite magnitude every number has one, so an operation overflows only
where its exact result is that large.

## Main definitions

* `BinaryFloat.IsNearest` — the finite number nearest to a rational one.

Main statements: `BinaryFloat.isNearest_ofRat`, `BinaryFloat.IsNearest.mul_lt`.
-/
namespace ColumnIndex

namespace FloatFormat

variable {F : FloatFormat}

/-- What lies below a midpoint is not rounded above it. -/
theorem Rounds.le_of_lt_midpoint {q : Rat} {code c : Nat} (h : F.Rounds q code)
    (hq : q < F.midpoint c) : code ≤ c := by
  by_contra hlt
  obtain ⟨d, rfl⟩ : ∃ d, code = d + 1 := ⟨code - 1, by omega⟩
  have hge := h.ge d rfl
  have hmono : F.midpoint c ≤ F.midpoint d := midpoint_strictMono.monotone (by omega)
  linarith

/-- The midpoint above the greatest finite magnitude. -/
def overflow (F : FloatFormat) : Rat := F.midpoint (F.infinityCode - 1)

theorem Rounds.lt_infinityCode_of_lt {q : Rat} {code : Nat} (hinf : F.infinityCode ≠ 0)
    (h : F.Rounds q code) (hq : q < F.overflow) : code < F.infinityCode := by
  have := h.le_of_lt_midpoint hq
  omega

end FloatFormat

namespace BinaryFloat

variable {F : FloatFormat}

/-- The number is finite, has no minus sign, and its magnitude is the nearest one. -/
def IsNearest (x : BinaryFloat F) (q : Rat) : Prop :=
  ∃ code, F.Rounds q code ∧ x.Holds (F.magnitude code)

theorem isNearest_of_rounds (hf : F.fractionBits ≠ 0) {q : Rat} (hq : 0 ≤ q) {code : Nat}
    (h : F.Rounds q code) (hlt : code < F.infinityCode) :
    (ofRat false q : BinaryFloat F).IsNearest q := by
  have hnumber : (ofRat false q : BinaryFloat F) = ofCode false code hlt.le :=
    ofRat_signed hf false hq h hlt.le
  refine ⟨code, h, ?_⟩
  rw [hnumber]
  exact ⟨decide_eq_true hlt, rfl, rfl⟩

/-- Below the overflow a number is rounded to a finite one. -/
theorem isNearest_ofRat (hf : F.fractionBits ≠ 0) (hinf : F.infinityCode ≠ 0) {q : Rat}
    (hq : 0 ≤ q) (hmost : q < F.overflow) : (ofRat false q : BinaryFloat F).IsNearest q := by
  obtain ⟨code, hcode⟩ := FloatFormat.exists_rounds hf hq
  exact isNearest_of_rounds hf hq hcode (hcode.lt_infinityCode_of_lt hinf hmost)

/-- A number that is not rounded to infinity is rounded to the nearest one. -/
theorem isNearest_of_isInfinite_eq (hf : F.fractionBits ≠ 0) {q : Rat} (hq : 0 ≤ q)
    (hfinite : (ofRat false q : BinaryFloat F).isInfinite = false) :
    (ofRat false q : BinaryFloat F).IsNearest q := by
  obtain ⟨code, hcode, hnearest⟩ := FloatFormat.nearestCode_spec (F := F) hf q.num.natAbs q.den_nz
  rw [← abs_eq_natAbs_div, abs_of_nonneg hq] at hcode
  have hvalue : (ofRat false q : BinaryFloat F).code = min F.infinityCode code := hnearest
  refine isNearest_of_rounds hf hq hcode ?_
  rw [isInfinite, hvalue, beq_eq_false_iff_ne] at hfinite
  omega

namespace IsNearest

variable {x y : BinaryFloat F} {q r : Rat}

theorem holds (h : x.IsNearest q) : x.Holds x.toRat := by
  obtain ⟨code, -, hholds⟩ := h
  rwa [hholds.toRat_eq]

theorem nonneg (h : x.IsNearest q) : 0 ≤ x.toRat := by
  obtain ⟨code, -, hholds⟩ := h
  rw [hholds.toRat_eq]
  exact F.magnitude_nonneg code

/-- A magnitude that a number does not pass is not passed by rounding. -/
theorem le_magnitude (h : x.IsNearest q) {c : Nat} (hq : q ≤ F.magnitude c) :
    x.toRat ≤ F.magnitude c := by
  obtain ⟨code, hcode, hholds⟩ := h
  rw [hholds.toRat_eq]
  exact F.magnitude_strictMono.monotone (hcode.le_of_le_magnitude hq)

theorem magnitude_le (h : x.IsNearest q) {c : Nat} (hq : F.magnitude c ≤ q) :
    F.magnitude c ≤ x.toRat := by
  obtain ⟨code, hcode, hholds⟩ := h
  rw [hholds.toRat_eq]
  exact F.magnitude_strictMono.monotone (hcode.ge_of_magnitude_le hq)

/-- The relative error is at most half a unit of the last significant bit. -/
theorem abs_sub_mul_le (h : x.IsNearest q) (hq : 2 ^ (F.minExponent + F.fractionBits) ≤ q) :
    |x.toRat - q| * 2 ^ (F.fractionBits + 1) ≤ q := by
  obtain ⟨code, hcode, hholds⟩ := h
  rw [hholds.toRat_eq]
  exact hcode.abs_sub_mul_le hq

/-- What is rounded up grows by at most half a unit of the last significant bit. -/
theorem toRat_mul_le (h : x.IsNearest q) (hq : 2 ^ (F.minExponent + F.fractionBits) ≤ q) :
    x.toRat * 2 ^ (F.fractionBits + 1) ≤ q * (2 ^ (F.fractionBits + 1) + 1) := by
  have herror := h.abs_sub_mul_le hq
  have hdiff := mul_le_mul_of_nonneg_right (le_abs_self (x.toRat - q))
    (by positivity : (0 : Rat) ≤ 2 ^ (F.fractionBits + 1))
  linarith

/-- What is rounded down shrinks by at most half a unit of the last significant bit. -/
theorem mul_le_toRat_mul (h : x.IsNearest q) (hq : 2 ^ (F.minExponent + F.fractionBits) ≤ q) :
    q * (2 ^ (F.fractionBits + 1) - 1) ≤ x.toRat * 2 ^ (F.fractionBits + 1) := by
  have herror := h.abs_sub_mul_le hq
  have hdiff := mul_le_mul_of_nonneg_right (neg_abs_le (x.toRat - q))
    (by positivity : (0 : Rat) ≤ 2 ^ (F.fractionBits + 1))
  linarith

/-- A product is exact up to the errors of its factors. -/
theorem mul_lt (hx : x.IsNearest q) (hy : y.IsNearest r)
    (hq : 2 ^ (F.minExponent + F.fractionBits) ≤ q)
    (hr : 2 ^ (F.minExponent + F.fractionBits) ≤ r) {t : Rat}
    (ht : q * r * (2 ^ (F.fractionBits + 1) + 1) ^ 2 < t * (2 ^ (F.fractionBits + 1)) ^ 2) :
    x.toRat * y.toRat < t := by
  have hbits : (0 : Rat) < 2 ^ (F.fractionBits + 1) := by positivity
  have hq0 : 0 ≤ q := le_trans (by positivity) hq
  have hxq := hx.toRat_mul_le hq
  have hyr := hy.toRat_mul_le hr
  have hyscaled : 0 ≤ y.toRat * 2 ^ (F.fractionBits + 1) := mul_nonneg hy.nonneg hbits.le
  have hscaled : x.toRat * y.toRat * (2 ^ (F.fractionBits + 1)) ^ 2
      < t * (2 ^ (F.fractionBits + 1)) ^ 2 := by
    calc x.toRat * y.toRat * (2 ^ (F.fractionBits + 1)) ^ 2
        = x.toRat * 2 ^ (F.fractionBits + 1) * (y.toRat * 2 ^ (F.fractionBits + 1)) := by ring
      _ ≤ q * (2 ^ (F.fractionBits + 1) + 1) * (r * (2 ^ (F.fractionBits + 1) + 1)) := by
          gcongr
      _ = q * r * (2 ^ (F.fractionBits + 1) + 1) ^ 2 := by ring
      _ < t * (2 ^ (F.fractionBits + 1)) ^ 2 := ht
  exact lt_of_mul_lt_mul_right hscaled (by positivity)

end IsNearest

/-- A quotient by at least one is finite, and not greater than what was divided. -/
theorem Holds.isNearest_div (hf : F.fractionBits ≠ 0) {x y : BinaryFloat F} {a b : Rat}
    (hx : x.Holds a) (ha : 0 ≤ a) (hy : y.Holds b) (hb : 1 ≤ b) :
    (x.div y).IsNearest (a / b) ∧ (x.div y).toRat ≤ a := by
  have hcode : F.magnitude x.code = a := by
    rw [← hx.toRat_eq, toRat_eq_signed, hx.positive, signed_false]
  have hle : a / b ≤ F.magnitude x.code := by
    rw [hcode]
    exact div_le_self ha hb
  have hquotient : 0 ≤ a / b := div_nonneg ha (zero_le_one.trans hb)
  obtain ⟨code, hrounds⟩ := FloatFormat.exists_rounds hf hquotient
  have hlt : code < F.infinityCode :=
    (hrounds.le_of_le_magnitude hle).trans_lt (isFinite_iff.1 hx.isFinite)
  rw [hx.div_eq hy (zero_lt_one.trans_le hb).ne']
  have hnearest := isNearest_of_rounds hf hquotient hrounds hlt
  exact ⟨hnearest, hcode ▸ hnearest.le_magnitude hle⟩

end BinaryFloat

end ColumnIndex
