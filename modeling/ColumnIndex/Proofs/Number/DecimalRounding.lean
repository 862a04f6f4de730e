import ColumnIndex.Number.Decimal
import ColumnIndex.Proofs.Number.DecimalDigits
import ColumnIndex.Proofs.Number.WholeRounding

/-!
# Conversion of decimal numbers to double precision

The conversion of a decimal number rounds several times on its way, and its text is rounded once.
Without a fraction, or with few digits, the way makes no difference: the errors are so small that
the coefficient is found again by rounding to a whole number, and what is left is the one division.

Main statements: `Decimal.toDouble_of_mod_eq_zero`, `Decimal.toDouble_of_coefficient_lt`,
`Decimal.truncate?_nearest`.
-/
namespace ColumnIndex

namespace FloatFormat

variable {F : FloatFormat} {q : Rat} {code : Nat}

/-! ## Steps below a power of two -/

/-- Below a power of two a step is shorter than that by all significant bits. -/
theorem exponent_lt_of_magnitude_lt {k : Int} (hk : F.minExponent + F.fractionBits < k)
    (h : F.magnitude code < 2 ^ k) : F.exponent code + F.fractionBits < k := by
  rcases F.shift_eq_zero_or code with hshift | hfull
  · rw [exponent_eq, hshift]
    simpa using hk
  · have hfull' : ((2 : Rat) ^ F.fractionBits) ≤ F.significand code := by exact_mod_cast hfull
    have hlt : (2 : Rat) ^ (F.exponent code + F.fractionBits) < 2 ^ k := by
      calc (2 : Rat) ^ (F.exponent code + F.fractionBits)
          = 2 ^ F.fractionBits * 2 ^ F.exponent code := by
            rw [zpow_add₀ two_ne_zero, zpow_natCast, mul_comm]
        _ ≤ F.significand code * 2 ^ F.exponent code := by gcongr
        _ < 2 ^ k := h
    exact (zpow_lt_zpow_iff_right₀ one_lt_two).1 hlt

/-- Up to a power of two rounding is off by at most half of the last step before it. -/
theorem Rounds.abs_sub_le_half_step (h : F.Rounds q code) (hnonneg : 0 ≤ q) {k : Int}
    (hk : F.minExponent + F.fractionBits < k) {limit : Nat} (hlimit : F.magnitude limit = 2 ^ k)
    (hq : q ≤ 2 ^ k) : |F.magnitude code - q| ≤ 2 ^ (k - F.fractionBits - 2) := by
  have hhalf : ∀ c < limit, (2 : Rat) ^ F.exponent c / 2 ≤ 2 ^ (k - F.fractionBits - 2) := by
    intro c hc
    have hstep := exponent_lt_of_magnitude_lt hk (hlimit ▸ F.magnitude_strictMono hc)
    have hexponent : k - F.fractionBits - 2 = (k - F.fractionBits - 1) - 1 := by ring
    rw [hexponent, zpow_sub_one₀ two_ne_zero, div_eq_mul_inv]
    gcongr
    · exact one_le_two
    · omega
  have hle : code ≤ limit := h.le_of_le_magnitude (hlimit ▸ hq)
  rcases le_total (F.magnitude code) q with hlow | hhigh
  · rcases Nat.lt_or_eq_of_le hle with hlt | rfl
    · have hmid := h.le
      have hstep := hhalf code hlt
      unfold FloatFormat.midpoint at hmid
      rw [abs_sub_comm, abs_of_nonneg (sub_nonneg.2 hlow)]
      linarith
    · rw [hlimit] at hlow ⊢
      rw [le_antisymm hq hlow, sub_self, abs_zero]
      positivity
  · rw [abs_of_nonneg (sub_nonneg.2 hhigh)]
    cases code with
    | zero =>
      rw [magnitude_zero, zero_sub]
      exact (neg_nonpos.2 hnonneg).trans (by positivity)
    | succ c =>
      have hmid := h.ge c rfl
      have hstep := hhalf c (by omega)
      rw [midpoint_eq_magnitude_succ_sub] at hmid
      linarith

end FloatFormat

namespace BinaryFloat

/-! ## Double precision -/

theorem double_most : (2 : Rat) ^ (2 ^ (FloatFormat.double.exponentBits - 1) - 1) = 2 ^ 1023 :=
  congrArg (fun n => (2 : Rat) ^ n)
    (by decide : 2 ^ (FloatFormat.double.exponentBits - 1) - 1 = 1023)

theorem double_least :
    FloatFormat.double.minExponent + FloatFormat.double.fractionBits = -1022 := by
  decide

/-- A whole number of fifty-three bits and zeros behind them is kept. -/
theorem holds_ofRat_shifted {n e : Nat} (hn : n ≤ 2 ^ 53) (he : e ≤ 900) :
    (ofRat false (n * 2 ^ e) : Double).Holds (n * 2 ^ e) := by
  obtain ⟨code, hcode⟩ := FloatFormat.exists_magnitude_eq (F := .double) hn (1074 + e)
  have hexponent : FloatFormat.double.minExponent + (1074 + e : Nat) = (e : Int) := by
    have : FloatFormat.double.minExponent = -1074 := by decide
    rw [this]
    omega
  rw [hexponent, zpow_natCast] at hcode
  apply holds_ofRat_of_magnitude (by decide) (by decide) hcode
  have hn' : (n : Rat) ≤ 2 ^ 53 := by exact_mod_cast hn
  calc (n : Rat) * 2 ^ e ≤ 2 ^ 53 * 2 ^ e := by gcongr
    _ = 2 ^ (53 + e) := (pow_add _ _ _).symm
    _ ≤ 2 ^ 1023 := pow_le_pow_right₀ one_le_two (by omega)
    _ = _ := double_most.symm

theorem holds_ofInt {n : Nat} (hn : n ≤ 2 ^ 53) : (ofInt n : Double).Holds n := by
  have h := holds_ofRat_shifted (e := 0) hn (Nat.zero_le _)
  simpa [ofInt] using h

/-- Powers of ten are kept as long as the powers of five in them are. -/
theorem holds_ofInt_pow {s : Nat} (hs : s ≤ 22) :
    (ofInt (10 ^ s : Nat) : Double).Holds (10 ^ s : Nat) := by
  have hfive : 5 ^ s ≤ 2 ^ 53 :=
    (Nat.pow_le_pow_right (by decide) hs).trans (by decide)
  have h := holds_ofRat_shifted (e := s) hfive (by omega)
  have hten : ((5 ^ s : Nat) * 2 ^ s : Rat) = (10 ^ s : Nat) := by
    push_cast
    rw [← mul_pow]
    norm_num
  rw [hten] at h
  exact_mod_cast h

/-- A number that is not too small and not too great is rounded with a small error. -/
theorem exists_holds_double {q : Rat} (hleast : 1 / 2 ^ 100 ≤ q) (hmost : q ≤ 2 ^ 100) :
    ∃ r, (ofRat false q : Double).Holds r ∧ |r - q| * 2 ^ 53 ≤ q := by
  apply exists_holds_ofRat_near (by decide) (by decide)
  · rw [double_least]
    calc (2 : Rat) ^ (-1022 : Int) ≤ 2 ^ (-100 : Int) :=
          zpow_le_zpow_right₀ one_le_two (by decide)
      _ = 1 / 2 ^ 100 := by norm_num
      _ ≤ q := hleast
  · rw [double_most]
    exact hmost.trans (pow_le_pow_right₀ one_le_two (by decide))

end BinaryFloat

namespace Decimal

/-- The two sides of a relative error. -/
theorem sub_le_of_abs_mul_le {a b : Rat} (h : |a - b| * 2 ^ 53 ≤ b) :
    a - b ≤ b / 2 ^ 53 ∧ b - a ≤ b / 2 ^ 53 := by
  have hpos : (0 : Rat) < 2 ^ 53 := by positivity
  exact abs_sub_le_iff.1 ((le_div_iff₀ hpos).2 h)

/-- Rounding a fraction and its sum with a whole number leaves the product with the denominator
near the numerator. If there is a whole part then the fraction is the lesser half of the number, and
if there is none then the sum is not rounded. -/
theorem abs_sub_lt_of_steps {whole rest power quotient sum : Rat} (hpower : 0 < power)
    (hless : rest ≤ power)
    (hwhole : 1 ≤ whole ∨ whole = 0 ∧ sum = quotient)
    (hmost : whole * power + rest ≤ 2 ^ 51 - 1)
    (hquotient : |quotient - rest / power| * 2 ^ 53 ≤ rest / power)
    (hsum : |sum - (whole + quotient)| * 2 ^ 53 ≤ whole + quotient) :
    |sum * power - (whole * power + rest)| < 3 / 8 := by
  have hscaled : ∀ a b : Rat, |a - b| * 2 ^ 53 ≤ b →
      |a * power - b * power| * 2 ^ 53 ≤ b * power := by
    intro a b h
    rw [← sub_mul, abs_mul, abs_of_pos hpower, mul_right_comm]
    exact mul_le_mul_of_nonneg_right h hpower.le
  have hquotient' := hscaled _ _ hquotient
  have hsum' := hscaled _ _ hsum
  rw [div_mul_cancel₀ _ hpower.ne'] at hquotient'
  rw [add_mul] at hsum'
  obtain ⟨hq, hq'⟩ := sub_le_of_abs_mul_le hquotient'
  obtain ⟨hs, hs'⟩ := sub_le_of_abs_mul_le hsum'
  rw [abs_lt]
  rcases hwhole with hone | ⟨rfl, rfl⟩
  · have hgreater : power ≤ whole * power := le_mul_of_one_le_left hpower.le hone
    constructor
    · linarith
    · linarith
  · rw [zero_mul, zero_add] at hmost ⊢
    constructor
    · linarith
    · linarith

variable {d : Decimal}

/-- A quotient is added to a whole number with a small error, and to zero with none. -/
theorem exists_holds_add {whole : Nat} {quotient : Rat} {x y : Double} (hx : x.Holds whole)
    (hy : y.Holds quotient) (hleast : 1 / 2 ^ 100 ≤ quotient) (hmost : whole + quotient ≤ 2 ^ 100) :
    ∃ sum, (x.add y).Holds sum ∧ |sum - (whole + quotient)| * 2 ^ 53 ≤ whole + quotient ∧
      (1 ≤ (whole : Rat) ∨ (whole : Rat) = 0 ∧ sum = quotient) := by
  have hwhole : (0 : Rat) ≤ whole := by positivity
  rw [hx.add_eq hy]
  rcases Nat.eq_zero_or_pos whole with rfl | hpos
  · rw [Nat.cast_zero, zero_add]
    refine ⟨quotient, (hy.ofRat_eq (by decide)).symm ▸ hy, ?_, .inr ⟨rfl, rfl⟩⟩
    rw [sub_self, abs_zero, zero_mul]
    exact le_trans (by positivity) hleast
  · obtain ⟨sum, hsum, hsumError⟩ :=
      BinaryFloat.exists_holds_double (q := whole + quotient) (by linarith) hmost
    exact ⟨sum, hsum, hsumError, .inl (by exact_mod_cast hpos)⟩

/-- A number below the limit of whole numbers with three more bits is rounded by at most an eighth.
-/
theorem exists_holds_eighth {q : Rat} (hq : 0 ≤ q) (hmost : q ≤ 2 ^ 51) :
    ∃ code, (BinaryFloat.ofRat false q : Double).Holds (FloatFormat.double.magnitude code) ∧
      |FloatFormat.double.magnitude code - q| ≤ 1 / 8 := by
  have hrange : q ≤ 2 ^ (2 ^ (FloatFormat.double.exponentBits - 1) - 1) := by
    refine hmost.trans ?_
    rw [BinaryFloat.double_most]
    exact pow_le_pow_right₀ one_le_two (by decide)
  obtain ⟨code, hrounds, hholds⟩ := BinaryFloat.exists_holds_ofRat (F := .double) (by decide)
    (by decide) hq hrange
  obtain ⟨limit, hlimit⟩ :=
    FloatFormat.exists_double_magnitude (n := 1) (e := 51) (by decide) (by decide)
  rw [Nat.cast_one, one_mul] at hlimit
  refine ⟨code, hholds, (hrounds.abs_sub_le_half_step hq (by decide) hlimit hmost).trans ?_⟩
  norm_num [FloatFormat.double]

/-- The coefficient of a number with fraction digits is found again, and then divided once. -/
theorem steps_eq_ofRat {whole rest power : Nat} (hrest : rest ≠ 0) (hless : rest < power)
    (hmost : whole * power + rest < 2 ^ 51) (hpower' : power ≤ 10 ^ 22) {x y z : Double}
    (hx : x.Holds whole) (hy : y.Holds rest) (hz : z.Holds power) :
    (((x.add (y.div z)).mul z).roundHalfAway).div z
      = .ofRat false ((whole * power + rest : Nat) / power) := by
  have hpos : (0 : Rat) < power := by exact_mod_cast Nat.zero_lt_of_lt hless
  have hone : (1 : Rat) ≤ power := by exact_mod_cast Nat.zero_lt_of_lt hless
  have hlimit : (power : Rat) ≤ 10 ^ 22 := by exact_mod_cast hpower'
  have hrest' : (1 : Rat) ≤ rest := by exact_mod_cast Nat.pos_of_ne_zero hrest
  have hless' : (rest : Rat) ≤ power := by exact_mod_cast hless.le
  have hwhole : (0 : Rat) ≤ whole := by positivity
  have hnumerator : (whole * power + rest : Rat) ≤ 2 ^ 51 - 1 := by
    have hstep : (whole * power + rest : Rat) + 1 ≤ 2 ^ 51 := by exact_mod_cast hmost
    linarith
  have hproduct : (whole : Rat) ≤ whole * power := le_mul_of_one_le_right hwhole hone
  have hsmall : 1 / 10 ^ 22 ≤ (rest : Rat) / power := by
    rw [div_le_div_iff₀ (by positivity) hpos]
    linarith
  have hlarge : (rest : Rat) / power ≤ rest := div_le_self (by positivity) hone
  obtain ⟨quotient, hquotient, hquotientError⟩ :=
    BinaryFloat.exists_holds_double (q := rest / power) (by linarith) (by linarith)
  obtain ⟨hq, hq'⟩ := sub_le_of_abs_mul_le hquotientError
  rw [← hy.div_eq hz hpos.ne'] at hquotient
  obtain ⟨sum, hsum, hsumError, hsumExact⟩ :=
    exists_holds_add hx hquotient (by linarith) (by linarith)
  have hnear := abs_sub_lt_of_steps hpos hless' hsumExact hnumerator hquotientError hsumError
  obtain ⟨hlow, hhigh⟩ := abs_lt.1 hnear
  obtain ⟨code, hcode, hproductError⟩ :=
    exists_holds_eighth (q := sum * power) (by linarith) (by linarith)
  have hfound : |FloatFormat.double.magnitude code - (whole * power + rest : Nat)| < 1 / 2 := by
    push_cast
    exact (abs_sub_le _ (sum * power) _).trans_lt (by linarith)
  have hcoefficient : (BinaryFloat.ofInt (whole * power + rest : Nat) : Double).Holds
      (whole * power + rest : Nat) :=
    BinaryFloat.holds_ofInt (by omega)
  rw [hsum.mul_eq hz,
    hcode.roundHalfAway_eq (by decide) (FloatFormat.double.magnitude_nonneg code) hfound]
  exact hcoefficient.div_eq hz hpos.ne'

/-- The sign stands before the nearest magnitude. -/
theorem nearest_eq (d : Decimal) :
    d.nearest
      = if d.negative then (BinaryFloat.ofRat false (d.coefficient / 10 ^ d.scale) : Double).neg
        else .ofRat false (d.coefficient / 10 ^ d.scale) := by
  have hvalue : (0 : Rat) ≤ d.coefficient / 10 ^ d.scale := by positivity
  rw [nearest, toRat_eq_signed, BinaryFloat.neg_ofRat hvalue]
  cases d.negative with
  | true => rfl
  | false => rfl

/-- A number whose fraction digits are zeros is converted to the nearest one, however large it is.
-/
theorem toDouble_of_mod_eq_zero (hs : d.scale ≠ 0) (hmod : d.coefficient % 10 ^ d.scale = 0) :
    d.toDouble = d.nearest := by
  have hrest : (BinaryFloat.ofInt (d.coefficient % 10 ^ d.scale : Nat) : Double).isZero := by
    rw [hmod]
    rfl
  have hparts := Nat.div_add_mod' d.coefficient (10 ^ d.scale)
  have hquotient : ((d.coefficient / 10 ^ d.scale : Nat) : Rat)
      = d.coefficient / 10 ^ d.scale := by
    rw [hmod, Nat.add_zero] at hparts
    rw [eq_div_iff (by positivity)]
    exact_mod_cast hparts
  unfold toDouble
  dsimp only
  rw [if_neg hs, nearest_eq, if_pos hrest, BinaryFloat.ofInt, Int.cast_natCast, hquotient]

/-- With few digits, and with no more fraction digits than a power of ten is exact for, a number is
converted to the nearest one. -/
theorem toDouble_of_coefficient_lt (hs : d.scale ≠ 0) (hcoefficient : d.coefficient < 2 ^ 51)
    (hscale : d.scale ≤ 22) : d.toDouble = d.nearest := by
  by_cases hmod : d.coefficient % 10 ^ d.scale = 0
  · exact toDouble_of_mod_eq_zero hs hmod
  · have hpower : 0 < 10 ^ d.scale := Nat.pow_pos (by decide)
    have hparts := Nat.div_add_mod' d.coefficient (10 ^ d.scale)
    have hwhole : (BinaryFloat.ofInt (d.coefficient / 10 ^ d.scale : Nat) : Double).Holds
        (d.coefficient / 10 ^ d.scale : Nat) :=
      BinaryFloat.holds_ofInt (by have := Nat.div_le_self d.coefficient (10 ^ d.scale); omega)
    have hrest : (BinaryFloat.ofInt (d.coefficient % 10 ^ d.scale : Nat) : Double).Holds
        (d.coefficient % 10 ^ d.scale : Nat) :=
      BinaryFloat.holds_ofInt (by have := Nat.mod_le d.coefficient (10 ^ d.scale); omega)
    have hstep := BinaryFloat.holds_ofInt_pow hscale
    have hne : ¬ (BinaryFloat.ofInt (d.coefficient % 10 ^ d.scale : Nat) : Double).isZero := by
      rw [hrest.isZero_iff]
      exact_mod_cast hmod
    have hpower' : 10 ^ d.scale ≤ 10 ^ 22 := Nat.pow_le_pow_right (by decide) hscale
    unfold toDouble
    dsimp only
    rw [if_neg hs, nearest_eq, if_neg hne,
      steps_eq_ofRat hmod (Nat.mod_lt _ hpower) (by omega) hpower' hwhole hrest hstep, hparts,
      Nat.cast_pow]
    rfl

/-! ## Whole parts -/

/-- The nearest number of double precision has the whole part of a decimal number that is not next
to the whole number above it. -/
theorem truncate?_nearest (hapart : |d.toRat| * (2 ^ 53 + 1) < (⌊|d.toRat|⌋ + 1) * 2 ^ 53) :
    d.nearest.truncate? = some d.truncate := by
  have hfloor : (⌊|d.toRat|⌋ : Rat) ≤ |d.toRat| := Int.floor_le _
  rw [abs_toRat] at hapart hfloor
  have hmost : (d.coefficient / 10 ^ d.scale : Rat) ≤ 2 ^ 53 := by linarith
  have hnonneg : (0 : Rat) ≤ d.coefficient / 10 ^ d.scale := by positivity
  obtain ⟨code, hrounds, hholds⟩ := BinaryFloat.exists_holds_ofRat (F := .double) (by decide)
    (by decide) hnonneg
    (hmost.trans (by rw [BinaryFloat.double_most]; exact pow_le_pow_right₀ one_le_two (by decide)))
  have hnearest : (BinaryFloat.ofRat false (d.coefficient / 10 ^ d.scale) : Double).IsNearest
      (d.coefficient / 10 ^ d.scale) := ⟨code, hrounds, hholds⟩
  have htruncate : (BinaryFloat.ofRat false (d.coefficient / 10 ^ d.scale) : Double).truncate?
      = some ((d.coefficient / 10 ^ d.scale : Nat) : Int) := by
    rw [hnearest.holds.truncate?_eq, truncate_of_nonneg hnearest.nonneg,
      hnearest.floor_eq hnonneg hapart, floor_div_pow]
  rw [nearest_eq]
  cases hneg : d.negative with
  | true =>
    rw [if_pos rfl, BinaryFloat.truncate?_neg, htruncate, truncate, hneg]
    rfl
  | false =>
    rw [if_neg Bool.false_ne_true, htruncate, truncate, hneg]
    rfl

end Decimal

end ColumnIndex
