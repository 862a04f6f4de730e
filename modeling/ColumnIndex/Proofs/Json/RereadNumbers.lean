import ColumnIndex.Proofs.DraftOptions
import ColumnIndex.Proofs.Json.FractionTokens
import ColumnIndex.Proofs.Json.Reproduced
import ColumnIndex.Proofs.Json.ScaledNumbers
import ColumnIndex.Proofs.Number.ShortestDigits

/-!
# Numbers that are read again

The shortest digits of a number are read in steps that round, so the number that is read may be
another one. But whatever was written is read: a finite number as a finite one with the same sign,
and what is not finite as null. And the steps are exact enough that a number beyond the end of an
axis, or not above zero, is read as one that is so too.

## Main definitions

* `FloatLayout.Readable` — the layouts of JSON, in which few enough digits are written.
* `FloatLayout.decimal` — the significand and the power of ten that a number is read as.

Main statements: `Json.Number.legible_double`, `Json.Number.legible_single`,
`Double.reproduced_iff`, `Single.reproduced_iff`, `Single.isPositive_of_reread`,
`Geo.isLatitude_of_reread`, `Geo.isLongitude_of_reread`.
-/
namespace ColumnIndex

open Json (read? Spells tokens)

/-! ## Written digits -/

namespace FloatLayout

/-- In the layout a number of the format has a point or an exponent, and its digits fit sixty-four
bits, its power of ten thirty-one. -/
structure Readable (layout : FloatLayout) (F : FloatFormat) : Prop where
  keepsPoint : layout.keepsPoint
  positional : ∃ least most, layout.positional = some (least, most) ∧ most ≤ 17
  fractionBits_ge : 17 ≤ F.fractionBits
  fractionBits_le : F.fractionBits ≤ 52
  exponentBits_ne : F.exponentBits ≠ 0
  exponentBits_le : F.exponentBits ≤ 11

theorem readable_jsonDouble : jsonDouble.Readable .double where
  keepsPoint := rfl
  positional := ⟨_, _, rfl, by decide⟩
  fractionBits_ge := by decide
  fractionBits_le := by decide
  exponentBits_ne := by decide
  exponentBits_le := by decide

theorem readable_jsonSingle : jsonSingle.Readable .single where
  keepsPoint := rfl
  positional := ⟨_, _, rfl, by decide⟩
  fractionBits_ge := by decide
  fractionBits_le := by decide
  exponentBits_ne := by decide
  exponentBits_le := by decide

/-- The significand and the power of ten that the digits of a finite code are read as. -/
def decimal (layout : FloatLayout) (F : FloatFormat) (code : Nat) : Scientific :=
  if code = 0 then ⟨0, -1⟩ else layout.spelled (F.shortest layout.tie code)

variable {layout : FloatLayout} {F : FloatFormat} {code : Nat}

theorem decimal_zero : layout.decimal F 0 = ⟨0, -1⟩ := if_pos rfl

/-- A decimal number that is rounded to a code other than zero has a digit other than zero. -/
theorem coefficient_ne_zero {s : Scientific} (h : F.Rounds s.toRat code) (hcode : code ≠ 0) :
    s.coefficient ≠ 0 := by
  intro hzero
  rw [Scientific.toRat, hzero, Nat.cast_zero, zero_mul, ← F.magnitude_zero] at h
  exact hcode (h.unique (FloatFormat.Rounds.magnitude 0))

namespace Readable

variable (h : layout.Readable F)
include h

theorem fractionBits_ne : F.fractionBits ≠ 0 := by
  have := h.fractionBits_ge
  omega

theorem rounds_decimal (code : Nat) : F.Rounds (layout.decimal F code).toRat code := by
  unfold decimal
  split
  · rename_i hzero
    rw [hzero, Scientific.toRat, Nat.cast_zero, zero_mul, ← F.magnitude_zero]
    exact FloatFormat.Rounds.magnitude 0
  · rw [Json.toRat_spelled]
    exact FloatFormat.rounds_shortest h.fractionBits_ne layout.tie code

theorem coefficient_shortest_lt (hcode : code ≠ 0) :
    (F.shortest layout.tie code).coefficient < 2 ^ 64 := by
  have hbits : 2 ^ (F.fractionBits + 3) ≤ 10 ^ 17 :=
    (Nat.pow_le_pow_right two_pos (Nat.add_le_add_right h.fractionBits_le 3)).trans (by decide)
  exact (FloatFormat.coefficient_shortest_le hbits h.fractionBits_ge layout.tie hcode).trans_lt
    (by decide)

theorem coefficient_shortest_ne (hcode : code ≠ 0) :
    (F.shortest layout.tie code).coefficient ≠ 0 :=
  coefficient_ne_zero (FloatFormat.rounds_shortest h.fractionBits_ne layout.tie code) hcode

theorem coefficient_decimal_lt (code : Nat) : (layout.decimal F code).coefficient < 2 ^ 64 := by
  unfold decimal
  split
  · decide
  · rename_i hcode
    obtain ⟨least, most, hpositional, hmost⟩ := h.positional
    exact Json.coefficient_spelled_lt hpositional hmost (h.coefficient_shortest_ne hcode)
      (h.coefficient_shortest_lt hcode)

/-- Zero is written with a digit behind its point. -/
theorem exponent_decimal_neg (hzero : (layout.decimal F code).coefficient = 0) :
    (layout.decimal F code).exponent < 0 := by
  by_cases hcode : code = 0
  · rw [hcode, decimal_zero]
    decide
  · exact absurd hzero (coefficient_ne_zero (h.rounds_decimal code) hcode)

/-- Only a few thousand places are between the first digit and the point. -/
theorem natAbs_point_lt (hcode : code ≠ 0) (hfinite : code < F.infinityCode) :
    ((F.shortest layout.tie code).point - 1).natAbs < 2 ^ 31 := by
  have hrounds := FloatFormat.rounds_shortest h.fractionBits_ne layout.tie code
  have hbits := h.fractionBits_le
  have hpow : 2 ^ (F.exponentBits - 1) ≤ 2 ^ 10 :=
    Nat.pow_le_pow_right two_pos (by have := h.exponentBits_le; omega)
  have hleast : F.minExponent = 2 - (2 ^ (F.exponentBits - 1) : Nat) - F.fractionBits := by
    rw [FloatFormat.minExponent]
    push_cast
    rfl
  generalize hs : F.shortest layout.tie code = s at hrounds ⊢
  have hne : s.coefficient ≠ 0 := coefficient_ne_zero hrounds hcode
  obtain ⟨hlow, hhigh⟩ := Text.zpow_point_le hne s.exponent
  change (10 : Rat) ^ (s.point - 1) ≤ s.toRat at hlow
  change s.toRat < (10 : Rat) ^ s.point at hhigh
  have habove : F.minExponent - 1 < s.point := by
    by_contra hle
    have hsmall : (10 : Rat) ^ s.point ≤ 10 ^ (F.minExponent - 1) :=
      zpow_le_zpow_right₀ (by norm_num) (Int.not_lt.1 hle)
    exact hcode (hrounds.eq_zero (hhigh.trans_le hsmall))
  have hbelow : s.point - 1 < (2 ^ (F.exponentBits - 1) : Nat) := by
    by_contra hge
    have hlarge : (10 : Rat) ^ 2 ^ (F.exponentBits - 1) ≤ 10 ^ (s.point - 1) := by
      rw [← zpow_natCast]
      exact zpow_le_zpow_right₀ (by norm_num) (Int.not_lt.1 hge)
    have hinf := hrounds.infinityCode_le h.exponentBits_ne (hlarge.trans hlow)
    omega
  omega

/-- A finite number is one token, which has the number that its decimal one is read as. -/
theorem tokens_chars {x : BinaryFloat F} (hx : x.isFinite) {y : Double}
    (hy : read? (layout.decimal F x.code) = some y) :
    tokens (x.chars layout)
      = [.plain (.ok (.number (.double (if x.negative then y.neg else y))))] := by
  have hvalue : Json.fractional x.negative (layout.decimal F x.code).coefficient
      (layout.decimal F x.code).exponent
        = .ok (.number (.double (if x.negative then y.neg else y))) := by
    rw [Json.fractional_eq, hy]
  rw [← hvalue, BinaryFloat.chars, BinaryFloat.not_isNaN_of_isFinite hx,
    BinaryFloat.not_isInfinite_of_isFinite hx, if_neg Bool.false_ne_true,
    if_neg Bool.false_ne_true]
  by_cases hzero : x.code = 0
  · have hisZero : x.isZero := by rw [BinaryFloat.isZero, hzero]; rfl
    rw [if_pos hisZero, if_pos h.keepsPoint, hzero, decimal_zero]
    exact Json.spells_zero.tokens_eq x.negative
  · have hisZero : ¬x.isZero := by rwa [BinaryFloat.isZero, beq_iff_eq]
    obtain ⟨least, most, hpositional, hmost⟩ := h.positional
    rw [if_neg hisZero, decimal, if_neg hzero]
    exact (Json.spells_digits h.keepsPoint hpositional hmost (h.coefficient_shortest_ne hzero)
      (h.coefficient_shortest_lt hzero)
      (h.natAbs_point_lt hzero (BinaryFloat.isFinite_iff.1 hx))).tokens_eq x.negative

/-- The number that is read is finite and has the sign that was written. -/
theorem finite_of_read? {x : BinaryFloat F} {y : Double}
    (hy : read? (layout.decimal F x.code) = some y) :
    y.isFinite ∧ (if x.negative then y.neg else y).isFinite ∧
      (if x.negative then y.neg else y).toRat = signed x.negative y.toRat := by
  obtain ⟨hholds, -⟩ := Json.holds_of_read? (h.coefficient_decimal_lt x.code) hy
  have hfinite := hholds.isFinite
  cases x.negative with
  | false => exact ⟨hfinite, hfinite, rfl⟩
  | true =>
    refine ⟨hfinite, hfinite, ?_⟩
    rw [if_pos rfl, BinaryFloat.toRat_eq_signed, BinaryFloat.toRat_eq_signed, BinaryFloat.neg,
      hholds.positive]
    rfl

end Readable

end FloatLayout

/-! ## Numbers that are not too large -/

namespace Json

open FloatLayout

/-- Every finite number of double precision is read. The two greatest ones are so close to the
overflow that they are looked at one by one. -/
theorem exists_read?_double {code : Nat} (hcode : code < FloatFormat.double.infinityCode) :
    ∃ y, read? (jsonDouble.decimal .double code) = some y := by
  have hinfinity : FloatFormat.double.infinityCode = 9218868437227405312 := by decide
  by_cases hbelow : code ≤ 9218868437227405309
  · have hrounds := readable_jsonDouble.rounds_decimal code
    refine exists_read?_of_lt (readable_jsonDouble.coefficient_decimal_lt code)
      readable_jsonDouble.exponent_decimal_neg ?_
    have hlimit : FloatFormat.double.midpoint 9218868437227405309
        = (36028797018963958 * 2 ^ 969 : Nat) := by decide +kernel
    have hvalue := hrounds.le.trans (FloatFormat.midpoint_strictMono.monotone hbelow)
    rw [hlimit] at hvalue
    rw [FloatFormat.overflow_double]
    simp only [Nat.cast_mul, Nat.cast_pow, Nat.cast_ofNat] at hvalue ⊢
    have hpow : (0 : Rat) < 2 ^ 969 := pow_pos two_pos _
    generalize (2 : Rat) ^ 969 = p at hvalue hpow ⊢
    linarith
  · have hlast : code = 9218868437227405310 ∨ code = 9218868437227405311 := by omega
    rw [← Option.isSome_iff_exists]
    rcases hlast with rfl | rfl
    · decide +kernel
    · decide +kernel

/-- Every finite number of single precision is read. -/
theorem exists_read?_single {code : Nat} (hcode : code < FloatFormat.single.infinityCode) :
    ∃ y, read? (jsonSingle.decimal .single code) = some y := by
  have hrounds := readable_jsonSingle.rounds_decimal code
  refine exists_read?_of_lt (readable_jsonSingle.coefficient_decimal_lt code)
    readable_jsonSingle.exponent_decimal_neg ?_
  have hlimit : FloatFormat.single.magnitude FloatFormat.single.infinityCode = (2 ^ 128 : Nat) := by
    decide +kernel
  have hnext : FloatFormat.single.midpoint code
      < FloatFormat.single.magnitude FloatFormat.single.infinityCode :=
    (FloatFormat.midpoint_lt_magnitude_succ code).trans_le
      (FloatFormat.single.magnitude_strictMono.monotone hcode)
  have hlarge : 2 ^ 130 < 36028797018963966 * 2 ^ 969 := by decide +kernel
  have hover := FloatFormat.natCast_lt_overflow hlarge
  have hvalue := hrounds.le.trans_lt hnext
  rw [hlimit] at hvalue
  push_cast at hvalue hover
  generalize FloatFormat.double.overflow = p at hover ⊢
  linarith

/-! ## Legible numbers -/

theorem tokens_null : tokens ['n', 'u', 'l', 'l'] = [.plain (.ok .null)] := by
  have h := tokens_chars (j := .null) trivial delimited_nil
  simpa [chars, firstToken, laterTokens, tokens_nil] using h

theorem Number.tokens_double {x : Double} (hx : x.isFinite) :
    ∃ y, read? (jsonDouble.decimal .double x.code) = some y ∧
      tokens (Number.double x).chars
        = [.plain (.ok (.number (.double (if x.negative then y.neg else y))))] := by
  obtain ⟨y, hy⟩ := exists_read?_double (BinaryFloat.isFinite_iff.1 hx)
  refine ⟨y, hy, ?_⟩
  rw [Number.chars, if_pos hx]
  exact readable_jsonDouble.tokens_chars hx hy

theorem Number.tokens_single {x : Single} (hx : x.isFinite) :
    ∃ y, read? (jsonSingle.decimal .single x.code) = some y ∧
      tokens (Number.single x).chars
        = [.plain (.ok (.number (.double (if x.negative then y.neg else y))))] := by
  obtain ⟨y, hy⟩ := exists_read?_single (BinaryFloat.isFinite_iff.1 hx)
  refine ⟨y, hy, ?_⟩
  rw [Number.chars, if_pos hx]
  exact readable_jsonSingle.tokens_chars hx hy

theorem Number.tokens_double_null {x : Double} (hx : ¬x.isFinite) :
    tokens (Number.double x).chars = [.plain (.ok .null)] := by
  rw [Number.chars, if_neg hx, tokens_null]

theorem Number.tokens_single_null {x : Single} (hx : ¬x.isFinite) :
    tokens (Number.single x).chars = [.plain (.ok .null)] := by
  rw [Number.chars, if_neg hx, tokens_null]

/-- Something is read where a number of double precision was written. -/
theorem Number.legible_double (x : Double) : (Number.double x).Legible := by
  by_cases hx : x.isFinite
  · obtain ⟨y, -, htokens⟩ := tokens_double hx
    exact legible_of_tokens htokens
  · exact legible_of_tokens (tokens_double_null hx)

/-- Something is read where a number of single precision was written. -/
theorem Number.legible_single (x : Single) : (Number.single x).Legible := by
  by_cases hx : x.isFinite
  · obtain ⟨y, -, htokens⟩ := tokens_single hx
    exact legible_of_tokens htokens
  · exact legible_of_tokens (tokens_single_null hx)

/-- A number is read where a finite one was written. -/
theorem reread_double {x : Double} (hx : x.isFinite) :
    (number (.double x)).reread = .number (.double x.reread) := by
  obtain ⟨y, -, htokens⟩ := Number.tokens_double hx
  rw [Json.reread, Double.reread, Number.reread_of_tokens htokens]

/-- The number that is read is that of the significand and the power of ten, with the sign. -/
theorem reread_eq_of_read? {x y : Double} (hx : x.isFinite)
    (hy : read? (jsonDouble.decimal .double x.code) = some y) :
    x.reread = if x.negative then y.neg else y := by
  obtain ⟨y', hy', htokens⟩ := Number.tokens_double hx
  obtain rfl := Option.some.inj (hy.symm.trans hy')
  rw [Double.reread, Number.reread_of_tokens htokens]

/-- Null is read where a number was written that is not finite. -/
theorem reread_double_null {x : Double} (hx : ¬x.isFinite) :
    (number (.double x)).reread = .null := by
  rw [Json.reread, Number.reread_of_tokens (Number.tokens_double_null hx)]

theorem reread_single_null {x : Single} (hx : ¬x.isFinite) :
    (number (.single x)).reread = .null := by
  rw [Json.reread, Number.reread_of_tokens (Number.tokens_single_null hx)]

/-- Zero is read as zero. -/
theorem toRat_read?_zero {y : Double} (h : read? ⟨0, -1⟩ = some y) : y.toRat = 0 := by
  have hcode : (read? ⟨0, -1⟩).map (·.code) = some 0 := by decide +kernel
  rw [h, Option.map_some, Option.some.injEq] at hcode
  rw [BinaryFloat.toRat_eq_signed, hcode, FloatFormat.magnitude_zero]
  cases y.negative with
  | false => rfl
  | true => exact neg_zero

end Json

/-- A number is reproduced if it is finite and equals what is read where it was written, for
nothing else can keep a finite number from being read. -/
theorem Double.reproduced_iff {x : Double} : x.Reproduced ↔ x.isFinite ∧ x.same x.reread := by
  constructor
  · intro h
    exact ⟨h.1, h.same_reread⟩
  · rintro ⟨hx, hsame⟩
    obtain ⟨y, -, htokens⟩ := Json.Number.tokens_double hx
    refine ⟨hx, _, Json.parse_of_tokens htokens, ?_⟩
    rwa [Double.reread, Json.Number.reread_of_tokens htokens] at hsame

/-- In single precision too. -/
theorem Single.reproduced_iff {x : Single} : x.Reproduced ↔ x.isFinite ∧ x.same x.reread := by
  constructor
  · intro h
    exact ⟨h.1, h.same_reread⟩
  · rintro ⟨hx, hsame⟩
    obtain ⟨y, -, htokens⟩ := Json.Number.tokens_single hx
    refine ⟨hx, _, Json.parse_of_tokens htokens, ?_⟩
    rwa [Single.reread, Json.Number.reread_of_tokens htokens] at hsame

/-! ## Boosts -/

/-- A number that is not above zero is not so in another format. -/
theorem BinaryFloat.toRat_convert_nonpos {F G : FloatFormat} (hg : G.fractionBits ≠ 0)
    {x : BinaryFloat F} (hx : x.isFinite) (h : x.toRat ≤ 0) :
    (x.convert : BinaryFloat G).toRat ≤ 0 := by
  have hconvert : (x.convert : BinaryFloat G) = ofRat x.negative x.toRat := by
    rw [convert, not_isNaN_of_isFinite hx, not_isInfinite_of_isFinite hx,
      if_neg Bool.false_ne_true, if_neg Bool.false_ne_true]
  have hnonneg := F.magnitude_nonneg x.code
  rw [hconvert, toRat_eq_signed]
  rw [toRat_eq_signed] at h ⊢
  rw [negative_ofRat_signed _ hnonneg]
  cases hsign : x.negative with
  | true =>
    rw [signed_true]
    exact neg_nonpos.2 (G.magnitude_nonneg _)
  | false =>
    rw [hsign, signed_false] at h
    have hzero : G.Rounds (F.magnitude x.code) 0 := by
      rw [le_antisymm h hnonneg, ← G.magnitude_zero]
      exact FloatFormat.Rounds.magnitude 0
    rw [ofRat_signed hg false hnonneg hzero (Nat.zero_le _), code_ofCode, G.magnitude_zero]
    exact le_rfl

namespace Single

open FloatLayout

variable {x : Single}

/-- What is read where a finite number was written: a number of double precision that is not above
zero unless the written one is. -/
theorem exists_reread_number (hx : x.isFinite) :
    ∃ y : Double, (Json.number (.single x)).reread = .number (.double y) ∧ y.isFinite ∧
      y.convert = x.reread ∧ (x.toRat ≤ 0 → y.toRat ≤ 0) := by
  obtain ⟨y, hy, htokens⟩ := Json.Number.tokens_single hx
  have hread := Json.Number.reread_of_tokens htokens
  obtain ⟨-, hfinite, hvalue⟩ := readable_jsonSingle.finite_of_read? hy
  refine ⟨_, by rw [Json.reread, hread], hfinite, ?_, fun hle => ?_⟩
  · rw [Single.reread, hread]
  · have hnonneg := (Json.holds_of_read? (readable_jsonSingle.coefficient_decimal_lt _) hy).2
    rw [hvalue]
    cases hsign : x.negative with
    | true => exact neg_nonpos.2 hnonneg
    | false =>
      rw [BinaryFloat.toRat_eq_signed, hsign, signed_false, ← FloatFormat.single.magnitude_zero,
        FloatFormat.single.magnitude_strictMono.le_iff_le] at hle
      rw [Nat.le_zero.1 hle, decimal_zero] at hy
      exact (Json.toRat_read?_zero hy).le

/-- A finite number is read where it was written. -/
theorem readSingle_reread_of_isFinite (hx : x.isFinite) :
    Wire.readSingle (Wire.singleJson x).reread = .ok x.reread := by
  obtain ⟨y, hy, -, hconvert, -⟩ := exists_reread_number hx
  rw [Wire.singleJson, hy, Wire.readSingle, hconvert]

/-- Only positive numbers are read as positive ones. -/
theorem isPositive_of_reread (hx : x.isFinite) (h : x.reread.IsPositive) : x.IsPositive := by
  refine ⟨hx, ?_⟩
  by_contra hle
  obtain ⟨y, -, hfinite, hconvert, hnonpos⟩ := exists_reread_number hx
  have hread := BinaryFloat.toRat_convert_nonpos (G := .single) (by decide) hfinite
    (hnonpos (not_lt.1 hle))
  rw [hconvert] at hread
  exact hread.not_gt h.2

end Single

/-! ## Coordinates -/

namespace Json

open FloatLayout

/-- From one on there are few enough digits behind the point that the significand is divided by an
exact power of ten. -/
theorem le_exponent {s : Scientific} (hs : s.coefficient < 2 ^ 64) (hlow : 1 ≤ s.toRat) :
    -22 ≤ s.exponent := by
  by_contra hsmall
  have hcoefficient : (s.coefficient : Rat) < 2 ^ 64 := by exact_mod_cast hs
  have hpow : (10 : Rat) ^ s.exponent ≤ 10 ^ (-23 : Int) :=
    zpow_le_zpow_right₀ (by norm_num) (by omega)
  have hless : s.toRat < 1 := by
    calc s.toRat ≤ s.coefficient * 10 ^ (-23 : Int) := by
          rw [Scientific.toRat]
          gcongr
      _ < 2 ^ 64 * 10 ^ (-23 : Int) := by gcongr
      _ < 1 := by norm_num
  exact hless.not_ge hlow

/-- A decimal number that is beyond a whole one by more than the errors of the reading is read as
one beyond it. -/
theorem lt_read? {s : Scientific} (hs : s.coefficient < 2 ^ 64) {y : Double}
    (h : read? s = some y) {n : Nat} (hpos : 1 ≤ n) (hn : n < 2 ^ 53) {q : Rat} (hq : q ≤ s.toRat)
    (hbeyond : n * (2 ^ 53) ^ 2 < q * (2 ^ 53 - 1) ^ 2) : n < y.toRat := by
  have hlow : (n : Rat) < s.toRat := by
    have hshrink : q * (2 ^ 53 - 1) ^ 2 ≤ s.toRat * (2 ^ 53) ^ 2 := by
      have hsnonneg : 0 ≤ s.toRat := by
        rw [Scientific.toRat]
        positivity
      calc q * (2 ^ 53 - 1) ^ 2 ≤ s.toRat * (2 ^ 53 - 1) ^ 2 := by gcongr
        _ ≤ s.toRat * (2 ^ 53) ^ 2 := mul_le_mul_of_nonneg_left (by norm_num) hsnonneg
    exact lt_of_mul_lt_mul_right (hbeyond.trans_le hshrink) (by positivity)
  by_cases he : 0 ≤ s.exponent
  · -- The number is whole, so it is greater by one at least.
    obtain ⟨m, hm⟩ : ∃ m : Nat, s.toRat = m := by
      obtain ⟨e, hexponent⟩ : ∃ e : Nat, s.exponent = e := ⟨s.exponent.toNat, by omega⟩
      refine ⟨s.coefficient * 10 ^ e, ?_⟩
      rw [Scientific.toRat, hexponent, zpow_natCast]
      push_cast
      rfl
    have hsucc : ((n + 1 : Nat) : Rat) ≤ s.toRat := by
      rw [hm] at hlow ⊢
      exact_mod_cast hlow
    have hread := natCast_le_read? hs he h (by omega) hsucc
    push_cast at hread
    linarith
  · have hone : 1 ≤ s.toRat := by
      have hcast : (1 : Rat) ≤ n := by exact_mod_cast hpos
      exact hcast.trans hlow.le
    have hne : s.coefficient ≠ 0 := by
      intro hzero
      rw [Scientific.toRat, hzero, Nat.cast_zero, zero_mul] at hone
      norm_num at hone
    have hread := mul_le_read? hs hne (le_exponent hs hone) (Int.not_le.1 he) h
    have hscaled : q * (2 ^ 53 - 1) ^ 2 ≤ s.toRat * (2 ^ 53 - 1) ^ 2 := by gcongr
    exact lt_of_mul_lt_mul_right (hbeyond.trans_le (hscaled.trans hread)) (by positivity)

end Json

namespace Geo

open FloatLayout

/-- A number that is read within a whole limit is within it, if the limit is one of the format, its
neighbour is read as it is, and what follows is too far away for the errors of the reading. -/
theorem isWithin_of_reread {n c : Nat} (hpos : 1 ≤ n) (hn : n < 2 ^ 53)
    (hlimit : FloatFormat.double.magnitude c = n)
    (hnext : (read? (jsonDouble.decimal .double (c + 1))).map (·.code) = some (c + 1))
    (hbeyond : n * (2 ^ 53) ^ 2 < FloatFormat.double.midpoint (c + 1) * (2 ^ 53 - 1) ^ 2)
    {x : Double} (hx : x.isFinite) (h : IsWithin n x.reread) : IsWithin n x := by
  obtain ⟨y, hy⟩ := Json.exists_read?_double (BinaryFloat.isFinite_iff.1 hx)
  obtain ⟨-, -, hvalue⟩ := readable_jsonDouble.finite_of_read? hy
  obtain ⟨hholds, hnonneg⟩ :=
    Json.holds_of_read? (readable_jsonDouble.coefficient_decimal_lt x.code) hy
  have hmagnitude : y.toRat ≤ n := by
    obtain ⟨-, hlow, hhigh⟩ := h
    rw [Json.reread_eq_of_read? hx hy, hvalue] at hlow hhigh
    have habs := abs_le.2 ⟨hlow, hhigh⟩
    rwa [abs_signed _ hnonneg] at habs
  have hcode : x.code ≤ c := by
    by_contra hlt
    refine hmagnitude.not_gt ?_
    rcases Nat.eq_or_lt_of_le (Nat.not_le.1 hlt) with heq | hfar
    · have hsame : y.code = c + 1 := by
        rw [← heq] at hy
        rwa [hy, Option.map_some, Option.some.injEq] at hnext
      rw [← hlimit]
      rw [BinaryFloat.toRat_eq_signed, hholds.positive, signed_false, hsame]
      exact FloatFormat.double.magnitude_strictMono (Nat.lt_succ_self c)
    · obtain ⟨d, hd⟩ : ∃ d, d + 1 = x.code := ⟨x.code - 1, by omega⟩
      have hmid := (readable_jsonDouble.rounds_decimal x.code).ge d hd
      have hmono : FloatFormat.double.midpoint (c + 1) ≤ FloatFormat.double.midpoint d :=
        FloatFormat.midpoint_strictMono.monotone (by omega)
      exact Json.lt_read? (readable_jsonDouble.coefficient_decimal_lt _) hy hpos hn
        (hmono.trans hmid) hbeyond
  have hle : |x.toRat| ≤ n := by
    rw [BinaryFloat.toRat_eq_signed, abs_signed _ (FloatFormat.double.magnitude_nonneg _),
      ← hlimit]
    exact FloatFormat.double.magnitude_strictMono.monotone hcode
  exact ⟨hx, abs_le.1 hle⟩

/-- A number that is read as a latitude is one. -/
theorem isLatitude_of_reread {x : Double} (hx : x.isFinite) (h : IsWithin 90 x.reread) :
    IsWithin 90 x :=
  isWithin_of_reread (n := 90) (c := 0x4056800000000000) (by decide) (by decide)
    (by decide +kernel) (by decide +kernel) (by decide +kernel) hx h

/-- A number that is read as a longitude is one. -/
theorem isLongitude_of_reread {x : Double} (hx : x.isFinite) (h : IsWithin 180 x.reread) :
    IsWithin 180 x :=
  isWithin_of_reread (n := 180) (c := 0x4066800000000000) (by decide) (by decide)
    (by decide +kernel) (by decide +kernel) (by decide +kernel) hx h

end Geo

end ColumnIndex
