import ColumnIndex.Number.Binary.Arithmetic
import ColumnIndex.Proofs.Number.Nearest

/-!
# Floating-point numbers as rational numbers

Each operation is described by the rational numbers that its operands denote. A number that is
rounded keeps its sign; a magnitude that the format has is kept as it is, and any other is off by
a small part of itself.

Main statements: `BinaryFloat.ofRat_signed`, `BinaryFloat.ofRat_toRat`,
`BinaryFloat.exists_holds_ofRat_near`.
-/
namespace ColumnIndex

/-- A magnitude with a sign. -/
def signed (negative : Bool) (m : Rat) : Rat := if negative then -m else m

@[simp] theorem signed_false (m : Rat) : signed false m = m := rfl

@[simp] theorem signed_true (m : Rat) : signed true m = -m := rfl

theorem abs_signed (negative : Bool) {m : Rat} (hm : 0 ≤ m) : |signed negative m| = m := by
  cases negative with
  | false => exact abs_of_nonneg hm
  | true => rw [signed_true, abs_neg, abs_of_nonneg hm]

theorem abs_signed_sub (negative : Bool) (q r : Rat) :
    |signed negative q - signed negative r| = |q - r| := by
  cases negative with
  | false => rfl
  | true => rw [signed_true, signed_true, neg_sub_neg, abs_sub_comm]

theorem signed_inj {negative : Bool} {m m' : Rat} :
    signed negative m = signed negative m' ↔ m = m' := by
  cases negative with
  | false => rfl
  | true => exact neg_inj

theorem truncate_signed (negative : Bool) (m : Rat) :
    truncate (signed negative m) = if negative then -truncate m else truncate m := by
  cases negative with
  | false => rfl
  | true => exact truncate_neg m

namespace BinaryFloat

variable {F : FloatFormat}

theorem ext {x y : BinaryFloat F} (hsign : x.negative = y.negative) (hcode : x.code = y.code) :
    x = y := by
  cases x
  cases y
  cases hsign
  cases hcode
  rfl

theorem toRat_eq_signed (x : BinaryFloat F) : x.toRat = signed x.negative (F.magnitude x.code) :=
  rfl

theorem isFinite_iff {x : BinaryFloat F} : x.isFinite ↔ x.code < F.infinityCode := by
  rw [isFinite, decide_eq_true_eq]

theorem not_isNaN_of_isFinite {x : BinaryFloat F} (hx : x.isFinite) : x.isNaN = false := by
  rw [isFinite_iff] at hx
  rw [isNaN, decide_eq_false_iff_not]
  omega

theorem not_isInfinite_of_isFinite {x : BinaryFloat F} (hx : x.isFinite) :
    x.isInfinite = false := by
  rw [isFinite_iff] at hx
  rw [isInfinite, beq_eq_false_iff_ne]
  omega

/-- The sign of a number that is rounded is kept. -/
theorem negative_ofRat_signed (negative : Bool) {m : Rat} (hm : 0 ≤ m) :
    (ofRat negative (signed negative m) : BinaryFloat F).negative = negative := by
  show (if (signed negative m).num = 0 then negative
    else decide ((signed negative m).num < 0)) = negative
  by_cases hzero : (signed negative m).num = 0
  · rw [if_pos hzero]
  · rw [if_neg hzero]
    cases negative with
    | false => simpa using hm
    | true =>
      have hne : m ≠ 0 := by
        rintro rfl
        simp at hzero
      simpa using lt_of_le_of_ne hm hne.symm

/-- A number is rounded to its sign and the code that its magnitude rounds to. -/
theorem ofRat_signed (hf : F.fractionBits ≠ 0) (negative : Bool) {m : Rat} (hm : 0 ≤ m)
    {code : Nat} (h : F.Rounds m code) (hc : code ≤ F.infinityCode) :
    ofRat negative (signed negative m) = ofCode negative code hc := by
  apply ext
  · exact negative_ofRat_signed negative hm
  · apply FloatFormat.nearestCode_eq_of_rounds hf (Rat.den_nz _) _ hc
    rwa [← abs_eq_natAbs_div, abs_signed negative hm]

/-- A quotient is rounded as the number that it denotes. -/
theorem ofRatio_eq_ofRat (hf : F.fractionBits ≠ 0) (negative : Bool) (num : Nat) {den : Nat}
    (hd : den ≠ 0) :
    (ofRatio negative num den : BinaryFloat F) = ofRat negative (signed negative (num / den)) := by
  have hm : (0 : Rat) ≤ num / den := by positivity
  apply ext
  · exact (negative_ofRat_signed negative hm).symm
  · apply FloatFormat.nearestCode_congr hf hd (Rat.den_nz _)
    rw [← abs_eq_natAbs_div, abs_signed negative hm]

/-- The sign of zero is all that the sign beside a number is for. -/
theorem ofRat_of_ne_zero (negative negative' : Bool) {q : Rat} (hq : q ≠ 0) :
    (ofRat negative q : BinaryFloat F) = ofRat negative' q := by
  unfold ofRat
  rw [if_neg (by simpa using hq), if_neg (by simpa using hq)]

theorem neg_ofRat {q : Rat} (hq : 0 ≤ q) :
    (ofRat false q : BinaryFloat F).neg = ofRat true (-q) := by
  apply ext
  · have hpos : (ofRat false q : BinaryFloat F).negative = false :=
      negative_ofRat_signed false hq
    have hneg : (ofRat true (-q) : BinaryFloat F).negative = true :=
      negative_ofRat_signed true hq
    rw [hneg, neg, hpos]
    rfl
  · simp [neg, ofRat, ofRatio]

theorem truncate?_neg (x : BinaryFloat F) : x.neg.truncate? = x.truncate?.map (-·) := by
  have hvalue : x.neg.toRat = -x.toRat := by
    rw [toRat, toRat, neg]
    cases x.negative with
    | true => simp
    | false => simp
  have hfinite : x.neg.isFinite = x.isFinite := rfl
  rw [truncate?, truncate?, toRat?, toRat?, hfinite, hvalue]
  split
  · rw [Option.map_some, Option.map_some, Option.map_some, truncate_neg]
  · rfl

/-- A finite number is the nearest one to what it denotes. -/
theorem ofRat_toRat (hf : F.fractionBits ≠ 0) {x : BinaryFloat F} (hx : x.isFinite) :
    ofRat x.negative x.toRat = x := by
  have hle : x.code ≤ F.infinityCode := (isFinite_iff.1 hx).le
  rw [toRat_eq_signed, ofRat_signed hf x.negative (F.magnitude_nonneg _)
    (FloatFormat.Rounds.magnitude x.code) hle]
  rfl

theorem abs_toRat (x : BinaryFloat F) : |x.toRat| = F.magnitude x.code := by
  rw [toRat_eq_signed, abs_signed _ (F.magnitude_nonneg _)]

/-! ## Positive numbers -/

/-- A finite number without a minus sign denotes a rational one. -/
structure Holds (x : BinaryFloat F) (q : Rat) : Prop where
  isFinite : x.isFinite
  positive : x.negative = false
  toRat_eq : x.toRat = q

namespace Holds

variable {x y : BinaryFloat F} {a b : Rat}

theorem isNaN_eq (hx : x.Holds a) : x.isNaN = false := not_isNaN_of_isFinite hx.isFinite

theorem isInfinite_eq (hx : x.Holds a) : x.isInfinite = false :=
  not_isInfinite_of_isFinite hx.isFinite

theorem isZero_iff (hx : x.Holds a) : x.isZero ↔ a = 0 := by
  have hvalue : F.magnitude x.code = a := by
    rw [← hx.toRat_eq, toRat_eq_signed, hx.positive, signed_false]
  rw [← hvalue, ← F.magnitude_zero, F.magnitude_strictMono.injective.eq_iff, isZero, beq_iff_eq]

theorem ofRat_eq (hf : F.fractionBits ≠ 0) (hx : x.Holds a) : ofRat false a = x := by
  rw [← hx.positive, ← hx.toRat_eq, ofRat_toRat hf hx.isFinite]

theorem truncate?_eq (hx : x.Holds a) : x.truncate? = some (truncate a) := by
  rw [truncate?, toRat?, if_pos hx.isFinite, hx.toRat_eq]
  rfl

theorem add_eq (hx : x.Holds a) (hy : y.Holds b) : x.add y = ofRat false (a + b) := by
  simp [add, hx.isNaN_eq, hy.isNaN_eq, hx.isInfinite_eq, hy.isInfinite_eq, hx.positive,
    hx.toRat_eq, hy.toRat_eq]

theorem mul_eq (hx : x.Holds a) (hy : y.Holds b) : x.mul y = ofRat false (a * b) := by
  simp [mul, hx.isNaN_eq, hy.isNaN_eq, hx.isInfinite_eq, hy.isInfinite_eq, hx.positive,
    hy.positive, hx.toRat_eq, hy.toRat_eq]

theorem div_eq (hx : x.Holds a) (hy : y.Holds b) (hb : b ≠ 0) :
    x.div y = ofRat false (a / b) := by
  have hzero : y.isZero = false := by simpa [hb] using hy.isZero_iff
  simp [div, hx.isNaN_eq, hy.isNaN_eq, hx.isInfinite_eq, hy.isInfinite_eq, hx.positive,
    hy.positive, hx.toRat_eq, hy.toRat_eq, hzero]

/-- A number is rounded to a whole one that is at most half a unit away. -/
theorem exists_roundHalfAway_eq (hf : F.fractionBits ≠ 0) (hx : x.Holds a) (ha : 0 ≤ a) :
    ∃ n : Nat, |n - a| ≤ 1 / 2 ∧ x.roundHalfAway = ofRat false n := by
  have hround := abs_roundHalfUp_sub_le a.num.natAbs a.den_nz
  rw [← abs_eq_natAbs_div, abs_of_nonneg ha] at hround
  refine ⟨_, hround, ?_⟩
  rw [roundHalfAway, if_pos hx.isFinite, hx.toRat_eq, hx.positive,
    ofRatio_eq_ofRat hf false _ one_ne_zero]
  simp

/-- A number that is less than half a unit away from a whole one is rounded to it. -/
theorem roundHalfAway_eq (hf : F.fractionBits ≠ 0) (hx : x.Holds a) (ha : 0 ≤ a) {n : Nat}
    (h : |a - n| < 1 / 2) : x.roundHalfAway = ofRat false n := by
  obtain ⟨m, hm, hround⟩ := hx.exists_roundHalfAway_eq hf ha
  have hless : |(m - n : Rat)| < 1 := (abs_sub_le _ a _).trans_lt (by linarith)
  have hsame : (m : Int) = n :=
    sub_eq_zero.1 (Int.abs_lt_one_iff.1 (by exact_mod_cast hless))
  rw [hround, Nat.cast_inj.1 hsame]

end Holds

section Range

variable (hf : F.fractionBits ≠ 0) (he : F.exponentBits ≠ 0) {q : Rat}
include hf he

/-- A number in range is rounded to a finite one. -/
theorem exists_holds_ofRat (hq : 0 ≤ q) (hmost : q ≤ 2 ^ (2 ^ (F.exponentBits - 1) - 1)) :
    ∃ code, F.Rounds q code ∧ (ofRat false q : BinaryFloat F).Holds (F.magnitude code) := by
  obtain ⟨code, hcode⟩ := FloatFormat.exists_rounds hf hq
  have hlt := hcode.lt_infinityCode hf he hmost
  have hnumber : (ofRat false q : BinaryFloat F) = ofCode false code hlt.le :=
    ofRat_signed hf false hq hcode hlt.le
  refine ⟨code, hcode, ?_⟩
  rw [hnumber]
  exact ⟨decide_eq_true hlt, rfl, rfl⟩

/-- A magnitude of the format is kept. -/
theorem holds_ofRat_of_magnitude {code : Nat} (hq : F.magnitude code = q)
    (hmost : q ≤ 2 ^ (2 ^ (F.exponentBits - 1) - 1)) :
    (ofRat false q : BinaryFloat F).Holds q := by
  have hnonneg : 0 ≤ q := hq ▸ F.magnitude_nonneg code
  obtain ⟨code', hcode', hholds⟩ := exists_holds_ofRat hf he hnonneg hmost
  have hsame : code' = code := hcode'.unique (hq ▸ FloatFormat.Rounds.magnitude code)
  rwa [hsame, hq] at hholds

/-- A number in range is rounded with a small relative error. -/
theorem exists_holds_ofRat_near (hleast : 2 ^ (F.minExponent + F.fractionBits) ≤ q)
    (hmost : q ≤ 2 ^ (2 ^ (F.exponentBits - 1) - 1)) :
    ∃ r, (ofRat false q : BinaryFloat F).Holds r ∧ |r - q| * 2 ^ (F.fractionBits + 1) ≤ q := by
  have hq : 0 ≤ q := le_trans (by positivity) hleast
  obtain ⟨code, hcode, hholds⟩ := exists_holds_ofRat hf he hq hmost
  exact ⟨_, hholds, hcode.abs_sub_mul_le hleast⟩

end Range

end BinaryFloat

end ColumnIndex
