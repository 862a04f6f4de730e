import ColumnIndex.Proofs.Number.FiniteWidening
import ColumnIndex.Proofs.Number.NearMidpoints
import ColumnIndex.Proofs.Number.ShortestPoints

/-!
# What widening keeps

A number of single precision is widened to the number of double precision that is nearest to its
shortest digits, and that is mostly another one. What is kept is what the number is narrowed to,
for all numbers but one; its shortest digits; and its whole part, as long as single precision has
all whole numbers. The number itself is kept if it is nearest to its own digits.

## Main definitions

* `BinaryFloat.shortestRat` — the shortest decimal number, with its sign.
* `BinaryFloat.OwnsDigits` — nothing is nearer to the shortest digits of a number than itself.

## Main statements

* `BinaryFloat.convert_widen_iff` — which numbers are narrowed again.
* `BinaryFloat.ownsDigits_iff` — which numbers are widened to themselves.
* `BinaryFloat.writtenRat_widen` — the digits are kept.
* `BinaryFloat.truncate?_widen_iff` — which whole parts are kept.
-/
namespace ColumnIndex

/-- Whole numbers with the same whole part are the same. -/
theorem eq_of_truncate {q r : Rat} (hq : q.den = 1) (hr : r.den = 1)
    (h : truncate q = truncate r) : q = r := by
  rw [truncate, truncate, hq, hr, Nat.cast_one, Int.tdiv_one, Int.tdiv_one] at h
  exact Rat.ext h (hq.trans hr.symm)

namespace FloatFormat

variable {F : FloatFormat} {q : Rat} {code : Nat}

/-! ## The nearest magnitude -/

/-- No magnitude is nearer than the one that is rounded to. -/
theorem Rounds.abs_sub_le (h : F.Rounds q code) (c : Nat) :
    |F.magnitude code - q| ≤ |F.magnitude c - q| := by
  rcases lt_trichotomy c code with hlt | rfl | hlt
  · obtain ⟨b, rfl⟩ : ∃ b, code = b + 1 := ⟨code - 1, by omega⟩
    have hmid := h.ge b rfl
    have hsucc := F.midpoint_eq_magnitude_succ_sub b
    have hcode := F.magnitude_strictMono.monotone (Nat.le_of_lt_succ hlt)
    have hstep : (0 : Rat) < 2 ^ F.exponent b := by positivity
    unfold FloatFormat.midpoint at hmid hsucc
    rw [abs_sub_comm (F.magnitude c), abs_of_nonneg (a := q - F.magnitude c) (by linarith), abs_le]
    constructor
    · linarith
    · linarith
  · exact le_rfl
  · have hmid := h.le
    have hsucc := F.magnitude_succ code
    have hcode := F.magnitude_strictMono.monotone (Nat.succ_le_of_lt hlt)
    have hstep : (0 : Rat) < 2 ^ F.exponent code := by positivity
    unfold FloatFormat.midpoint at hmid
    rw [abs_of_nonneg (a := F.magnitude c - q) (by linarith), abs_le]
    constructor
    · linarith
    · linarith

/-- A magnitude with an even code is rounded to if neither neighbour is nearer. -/
theorem rounds_of_abs_sub_le (heven : code % 2 = 0)
    (h : ∀ c ≤ code + 1, |F.magnitude code - q| ≤ |F.magnitude c - q|) : F.Rounds q code where
  ge := by
    rintro c rfl
    have hnear := h c (by omega)
    have hlt := F.magnitude_strictMono (Nat.lt_succ_self c)
    have hsucc := F.magnitude_succ c
    rw [midpoint_eq_magnitude_succ_sub]
    by_contra hq
    rw [not_le] at hq
    have hhigh := le_abs_self (F.magnitude (c + 1) - q)
    have hless : |F.magnitude c - q| < F.magnitude (c + 1) - q :=
      abs_lt.2 ⟨by linarith, by linarith⟩
    linarith
  le := by
    have hnear := h (code + 1) le_rfl
    have hlt := F.magnitude_strictMono (Nat.lt_succ_self code)
    have hsucc := F.magnitude_succ code
    by_contra hq
    rw [not_le, midpoint] at hq
    have hlow := neg_le_abs (F.magnitude code - q)
    have hless : |F.magnitude (code + 1) - q| < q - F.magnitude code :=
      abs_lt.2 ⟨by linarith, by linarith⟩
    linarith
  even _ := heven

/-- A number of fewer bits than double precision has is a magnitude with an even code. -/
theorem exists_even_double_magnitude (code : Nat) :
    ∃ c, c % 2 = 0 ∧ double.magnitude c = single.magnitude code := by
  have hlt : single.significand code < 2 ^ 24 := single.significand_lt code
  have hexponent := single_exponent_ge code
  by_cases hzero : single.significand code = 0
  · refine ⟨0, rfl, ?_⟩
    rw [magnitude_zero, magnitude, hzero, Nat.cast_zero, zero_mul]
  · -- The bits are shifted until all are in use, which leaves a zero at the end.
    have hlow := Nat.log2_self_le hzero
    have hhigh := Nat.lt_log2_self (n := single.significand code)
    have hlog : (single.significand code).log2 < 24 := (Nat.log2_lt hzero).2 hlt
    obtain ⟨k, hk⟩ : ∃ k, (single.significand code).log2 + (k + 1) = 52 :=
      ⟨51 - (single.significand code).log2, by omega⟩
    have hfull : 2 ^ 52 ≤ single.significand code * 2 ^ (k + 1) := by
      calc 2 ^ 52 = 2 ^ (single.significand code).log2 * 2 ^ (k + 1) := by rw [← pow_add, hk]
        _ ≤ single.significand code * 2 ^ (k + 1) := Nat.mul_le_mul_right _ hlow
    have hmost : single.significand code * 2 ^ (k + 1) ≤ 2 ^ 53 := by
      calc single.significand code * 2 ^ (k + 1)
          ≤ 2 ^ ((single.significand code).log2 + 1) * 2 ^ (k + 1) :=
            Nat.mul_le_mul_right _ hhigh.le
        _ = 2 ^ 53 := by rw [← pow_add, Nat.add_right_comm, hk]
    obtain ⟨d, hd⟩ : ∃ d : Nat, double.minExponent + d = single.exponent code - (k + 1 : Nat) := by
      have hleast : double.minExponent = -1074 := by decide
      exact ⟨(single.exponent code - (k + 1 : Nat) + 1074).toNat, by omega⟩
    refine ⟨d * 2 ^ 52 + single.significand code * 2 ^ (k + 1), ?_, ?_⟩
    · have hdouble : single.significand code * 2 ^ (k + 1)
          = 2 * (single.significand code * 2 ^ k) := by ring
      omega
    · have hmagnitude := double.magnitude_shifted (d := d) (.inr hfull) hmost
      rw [hd] at hmagnitude
      refine hmagnitude.trans ?_
      rw [magnitude, zpow_sub₀ two_ne_zero, zpow_natCast]
      push_cast
      field_simp

/-- From one on, steps of a whole number of bits make whole magnitudes. -/
theorem exists_magnitude_eq_natCast (h : 0 ≤ F.exponent code) :
    ∃ n : Nat, F.magnitude code = n := by
  refine ⟨F.significand code * 2 ^ (F.exponent code).toNat, ?_⟩
  have hexponent : F.exponent code = ((F.exponent code).toNat : Int) := by omega
  rw [magnitude, hexponent, zpow_natCast]
  push_cast
  rfl

/-- A whole number is rounded to a whole one. -/
theorem Rounds.exists_natCast {n : Nat} (h : double.Rounds n code) :
    ∃ m : Nat, double.magnitude code = m := by
  rcases le_or_gt 0 (double.exponent code) with hexponent | hexponent
  · exact exists_magnitude_eq_natCast hexponent
  · -- With a fraction in its steps, double precision has all whole numbers there.
    have hbits : double.significand code + 1 ≤ 2 ^ 53 := double.significand_lt code
    have hstep : (2 : Rat) ^ double.exponent code ≤ 1 :=
      zpow_le_one_of_nonpos₀ one_le_two hexponent.le
    have hless : (n : Rat) < 2 ^ 53 := by
      calc (n : Rat) ≤ double.midpoint code := h.le
        _ < double.magnitude (code + 1) := midpoint_lt_magnitude_succ code
        _ = (double.significand code + 1 : Nat) * 2 ^ double.exponent code := by
          rw [magnitude_succ, FloatFormat.magnitude]
          push_cast
          ring
        _ ≤ (2 ^ 53 : Nat) * 1 := by gcongr
        _ = 2 ^ 53 := by norm_num
    obtain ⟨c, hc⟩ := exists_double_magnitude (n := n) (e := 0)
      (by exact_mod_cast hless.le) (by decide)
    rw [zpow_zero, mul_one] at hc
    rw [← hc] at h
    exact ⟨n, by rw [h.unique (Rounds.magnitude c), hc]⟩

end FloatFormat

namespace BinaryFloat

/-- The shortest decimal number that is rounded to a number, with its sign. -/
def shortestRat {F : FloatFormat} (x : BinaryFloat F) : Rat := signed x.negative x.writtenRat

theorem abs_shortestRat {F : FloatFormat} (x : BinaryFloat F) : |x.shortestRat| = x.writtenRat :=
  abs_signed _ x.writtenRat_nonneg

variable {x : Single}

/-! ## Narrowing again -/

/-- What is written for a number is not among the smallest numbers of double precision. -/
theorem double_normal_le_writtenRat (hne : x.code ≠ 0) :
    (2 : Rat) ^ (FloatFormat.double.minExponent + FloatFormat.double.fractionBits)
      ≤ x.writtenRat := by
  obtain ⟨before, hbefore⟩ := Nat.exists_eq_succ_of_ne_zero hne
  calc (2 : Rat) ^ (FloatFormat.double.minExponent + FloatFormat.double.fractionBits)
      = 2 ^ (-1022 : Int) := rfl
    _ ≤ 2 ^ (-150 : Int) := zpow_le_zpow_right₀ one_le_two (by decide)
    _ = FloatFormat.single.midpoint 0 := by decide +kernel
    _ ≤ FloatFormat.single.midpoint before :=
      FloatFormat.midpoint_strictMono.monotone (Nat.zero_le _)
    _ ≤ x.writtenRat := (x.rounds_writtenRat (by decide)).ge before hbefore.symm

theorem writtenRat_eq_shortest (hne : x.code ≠ 0) :
    x.writtenRat = (FloatFormat.single.shortest .up x.code).toRat := by
  unfold writtenRat
  rw [if_neg (by simpa [isZero] using hne)]

/-- What is written is no midpoint, since that belongs to the even one of two codes. -/
theorem writtenRat_ne_midpoint (hodd : x.code % 2 = 1) {c : Nat}
    (hc : c + 1 = x.code ∨ c = x.code) : x.writtenRat ≠ FloatFormat.single.midpoint c := by
  intro h
  have hrounds := x.rounds_writtenRat (by decide)
  have heven : x.code % 2 = 0 := by
    rcases hc with hc | rfl
    · exact hrounds.even (.inl ⟨c, hc, h⟩)
    · exact hrounds.even (.inr h)
  omega

/-- If what is written is widened to a midpoint, it is as near to that as double precision is
fine. -/
theorem abs_writtenRat_sub_mul_le (hx : x.isFinite) (hne : x.code ≠ 0) {m : Rat}
    (hm : FloatFormat.double.magnitude x.widen.code = m) :
    |x.writtenRat - m| * 2 ^ 28 ≤ 2 ^ (FloatFormat.single.exponent x.code - 1) := by
  obtain ⟨-, -, hwiden⟩ := widen_spec hx
  have hmost : x.writtenRat ≤ 2 ^ 25 * 2 ^ (FloatFormat.single.exponent x.code - 1) := by
    have hlt : FloatFormat.single.significand x.code < 2 ^ 24 :=
      FloatFormat.single.significand_lt _
    have hbits : ((4 * FloatFormat.single.significand x.code + 2 : Nat) : Rat) ≤ 2 ^ 26 := by
      exact_mod_cast (by omega : 4 * FloatFormat.single.significand x.code + 2 ≤ 2 ^ 26)
    calc x.writtenRat ≤ FloatFormat.single.midpoint x.code := (x.rounds_writtenRat (by decide)).le
      _ ≤ 2 ^ 26 * 2 ^ (FloatFormat.single.exponent x.code - 2) := by
        rw [FloatFormat.midpoint_eq_quarters]
        gcongr
      _ = 2 ^ 25 * 2 ^ (FloatFormat.single.exponent x.code - 1) := by
        rw [zpow_sub₀ two_ne_zero, zpow_sub_one₀ two_ne_zero]
        ring
  have herror := hwiden.abs_sub_mul_le (double_normal_le_writtenRat hne)
  have hbits : (2 : Rat) ^ (FloatFormat.double.fractionBits + 1) = 2 ^ 28 * 2 ^ 25 := by
    rw [← pow_add]
    rfl
  rw [hm, abs_sub_comm, hbits, ← mul_assoc] at herror
  have hboth := herror.trans hmost
  rw [mul_comm (2 ^ 25 : Rat)] at hboth
  exact le_of_mul_le_mul_right hboth (by positivity)

/-- A number with an odd code is not widened to a midpoint next to it, but for one: its shortest
digits are on a grid that is too coarse to be so near. -/
theorem magnitude_widen_ne_midpoint (hx : x.isFinite) (hodd : x.code % 2 = 1)
    (hcode : x.code ≠ 0x15ae43fd) {c : Nat} (hc : c + 1 = x.code ∨ c = x.code) :
    FloatFormat.double.magnitude x.widen.code ≠ FloatFormat.single.midpoint c := by
  intro hmid
  have hf : FloatFormat.single.fractionBits ≠ 0 := by decide
  have hne : x.code ≠ 0 := by omega
  have hodd' : FloatFormat.single.significand x.code % 2 = 1 := by
    rw [← FloatFormat.code_mod_two hf, hodd]
  have hlow := FloatFormat.lowQuarters_of_odd hf hodd'
  obtain ⟨m, hm, hhalves, hdistance⟩ := FloatFormat.exists_midpoint_eq_halves hne hlow hc
  have hlt : FloatFormat.single.significand x.code < 2 ^ 24 := FloatFormat.single.significand_lt _
  have hparts : FloatFormat.single.shift x.code * 2 ^ 23 + FloatFormat.single.significand x.code
      = x.code := FloatFormat.single.shift_mul_add_significand x.code
  have hfull : FloatFormat.single.shift x.code = 0 ∨
      2 ^ 23 ≤ FloatFormat.single.significand x.code := FloatFormat.single.shift_eq_zero_or x.code
  have hexponent := FloatFormat.exponent_eq FloatFormat.single x.code
  have hleast : FloatFormat.single.minExponent = -149 := by decide
  have hfinite : x.code < 255 * 2 ^ 23 := isFinite_iff.1 hx
  have hrounds := x.rounds_writtenRat hf
  have hstrict := writtenRat_ne_midpoint hodd hc
  have hnear := abs_writtenRat_sub_mul_le hx hne hmid
  have hwritten := writtenRat_eq_shortest hne
  have hhalf : (0 : Rat) < 2 ^ (FloatFormat.single.exponent x.code - 1) := by positivity
  rcases FloatFormat.shortest_eq_or hf hne hlow .up with hexact | ⟨c', g, hvalue, hgrid⟩
  · rw [hwritten, hexact, abs_sub_comm, hdistance] at hnear
    linarith
  · rw [← hwritten] at hvalue hgrid
    have hcoarse : (2 : Rat) ^ FloatFormat.single.exponent x.code * (1 - 1 / 2 ^ 28) ≤ 10 ^ g := by
      have htriangle := abs_sub_le (FloatFormat.single.midpoint c) x.writtenRat
        (FloatFormat.single.magnitude x.code)
      rw [hdistance, abs_sub_comm] at htriangle
      have hstep : (2 : Rat) ^ FloatFormat.single.exponent x.code
          = 2 * 2 ^ (FloatFormat.single.exponent x.code - 1) := by
        rw [mul_comm, ← zpow_add_one₀ two_ne_zero, sub_add_cancel]
      rw [hstep]
      linarith
    have hc' : 0 < c' := by
      apply Nat.pos_of_ne_zero
      rintro rfl
      rw [hvalue, Nat.cast_zero, zero_mul, ← FloatFormat.single.magnitude_zero] at hrounds
      exact hne (hrounds.unique (FloatFormat.Rounds.magnitude 0))
    rw [hhalves, hvalue] at hnear hstrict
    rcases FloatFormat.eq_midpoint_or (by omega) (by omega) hc' (by omega) hcoarse hnear with
      hsame | ⟨he, hm'⟩
    · exact hstrict hsame
    · omega

theorem convert_widen (hx : x.isFinite) (hcode : x.code ≠ 0x15ae43fd) :
    (x.widen.convert : Single) = x := by
  rcases Nat.mod_two_eq_zero_or_one x.code with heven | hodd
  · exact convert_widen_of_even hx heven
  · obtain ⟨hfinite, hsign, -⟩ := widen_spec hx
    obtain ⟨hge, hle⟩ := widen_between hx
    refine convert_eq_of_rounds hx hfinite hsign ⟨hge, hle, ?_⟩
    rintro (⟨c, hc, hmid⟩ | hmid)
    · exact absurd hmid (magnitude_widen_ne_midpoint hx hodd hcode (.inl hc))
    · exact absurd hmid (magnitude_widen_ne_midpoint hx hodd hcode (.inr rfl))

theorem code_convert_widen (hcode : x.code = 0x15ae43fd) :
    (x.widen.convert : Single).code = 0x15ae43fe := by
  have heq : x = ofCode x.negative 0x15ae43fd (by decide) := ext rfl hcode
  rw [heq]
  cases x.negative with
  | true => decide +kernel
  | false => decide +kernel

/-- A finite number is narrowed again from what it is widened to, but for one with each sign, which
is narrowed to its neighbour. -/
theorem convert_widen_iff (hx : x.isFinite) :
    (x.widen.convert : Single) = x ↔ x.code ≠ 0x15ae43fd := by
  refine ⟨fun h hcode => ?_, convert_widen hx⟩
  have hneighbour := code_convert_widen hcode
  rw [h, hcode] at hneighbour
  cases hneighbour

/-! ## The number itself -/

/-- No number of double precision is nearer to the digits that are written for a number than the
number itself. -/
def OwnsDigits (x : Single) : Prop :=
  ∀ y : Double, y.isFinite → |x.toRat - x.shortestRat| ≤ |y.toRat - x.shortestRat|

/-- A number is widened to itself if nothing is nearer to its digits. A number that is as near has
an odd code, since a number of single precision ends in zeros at double precision. -/
theorem ownsDigits_iff (hx : x.isFinite) : x.OwnsDigits ↔ x.widen.toRat = x.toRat := by
  obtain ⟨-, hsign, hrounds⟩ := widen_spec hx
  obtain ⟨c, heven, hc⟩ := FloatFormat.exists_even_double_magnitude x.code
  obtain ⟨limit, hlimit⟩ :=
    FloatFormat.exists_double_magnitude (n := 1) (e := 128) (by decide) (by decide)
  rw [Nat.cast_one, one_mul] at hlimit
  have hlt : c < limit := by
    rw [← FloatFormat.double.magnitude_strictMono.lt_iff_lt, hc, hlimit]
    exact FloatFormat.single_magnitude_lt (isFinite_iff.1 hx)
  have hfinite : limit < FloatFormat.double.infinityCode := by
    rw [FloatFormat.lt_infinityCode_iff _ (by decide), hlimit]
    exact pow_lt_pow_right₀ one_lt_two (by decide)
  have hdistance : ∀ c', |signed x.negative (FloatFormat.double.magnitude c') - x.shortestRat|
      = |FloatFormat.double.magnitude c' - x.writtenRat| := fun c' => abs_signed_sub _ _ _
  have hown : x.toRat = signed x.negative (FloatFormat.double.magnitude c) := by
    rw [hc, toRat_eq_signed]
  unfold OwnsDigits
  rw [hown, hdistance, toRat_eq_signed x.widen, hsign, signed_inj]
  constructor
  · intro h
    refine congrArg _ (hrounds.unique (FloatFormat.rounds_of_abs_sub_le heven fun c' hc' => ?_))
    have hdouble : (ofCode x.negative c' (by omega) : Double).isFinite :=
      decide_eq_true (by dsimp only [ofCode]; omega)
    have hnear := h _ hdouble
    rwa [toRat_eq_signed, negative_ofCode, code_ofCode, hdistance] at hnear
  · intro h y hy
    rw [← h]
    refine (hrounds.abs_sub_le y.code).trans ?_
    calc |FloatFormat.double.magnitude y.code - x.writtenRat|
        = |(|y.toRat| - |x.shortestRat|)| := by rw [abs_toRat, abs_shortestRat]
      _ ≤ |y.toRat - x.shortestRat| := abs_abs_sub_abs_le _ _

/-- A whole number owns its digits as long as single precision has all whole numbers. -/
theorem ownsDigits_of_whole (hx : x.isFinite) (hwhole : x.toRat.den = 1)
    (hlimit : |x.toRat| < 2 ^ 24) : x.OwnsDigits :=
  (ownsDigits_iff hx).2 (toRat_widen_of_whole hx hlimit hwhole)

/-! ## The digits -/

/-- What a number is widened to has the same shortest digits. -/
theorem writtenRat_widen (hx : x.isFinite) : x.widen.writtenRat = x.writtenRat := by
  obtain ⟨-, -, hrounds⟩ := widen_spec hx
  by_cases hzero : x.code = 0
  · have hwritten : x.writtenRat = 0 := by
      unfold writtenRat
      rw [if_pos (by simpa [isZero] using hzero)]
    rw [hwritten, ← FloatFormat.double.magnitude_zero] at hrounds
    have hwiden := hrounds.unique (FloatFormat.Rounds.magnitude 0)
    rw [hwritten]
    unfold writtenRat
    rw [if_pos (by simpa [isZero] using hwiden)]
  · have hnormal := double_normal_le_writtenRat hzero
    have hdigits := FloatFormat.coefficient_shortest_le (F := .single) (k := 8) (by decide)
      (by decide) .up hzero
    have hnonzero : x.widen.code ≠ 0 := by
      intro h
      have hsmall := hrounds.abs_sub_mul_le hnormal
      rw [h, FloatFormat.magnitude_zero, zero_sub, abs_neg,
        abs_of_nonneg x.writtenRat_nonneg] at hsmall
      have hpos : 0 < x.writtenRat := lt_of_lt_of_le (by positivity) hnormal
      have htwo : (2 : Rat) ≤ 2 ^ (FloatFormat.double.fractionBits + 1) :=
        le_self_pow₀ one_le_two (Nat.succ_ne_zero _)
      have hmul := mul_le_mul_of_nonneg_left htwo hpos.le
      linarith
    have hwiden : x.widen.writtenRat = (FloatFormat.double.shortest .up x.widen.code).toRat := by
      unfold writtenRat
      rw [if_neg (by simpa [isZero] using hnonzero)]
    rw [writtenRat_eq_shortest hzero, Scientific.toRat] at hnormal hrounds
    rw [hwiden, writtenRat_eq_shortest hzero]
    exact FloatFormat.toRat_shortest_of_rounds (by decide) .up (by omega) hnormal hrounds

/-! ## The whole part -/

theorem den_toRat_of_magnitude {F : FloatFormat} {y : BinaryFloat F} {n : Nat}
    (h : F.magnitude y.code = n) : y.toRat.den = 1 := by
  rw [toRat_eq_signed, h]
  cases y.negative with
  | false => rfl
  | true => rfl

/-- Where single precision has whole numbers only, a number is widened to a whole one. -/
theorem den_toRat_of_le (hx : x.isFinite) (hlimit : 2 ^ 24 ≤ |x.toRat|) :
    x.toRat.den = 1 ∧ x.widen.toRat.den = 1 := by
  rw [abs_toRat] at hlimit
  have hexponent : 0 ≤ FloatFormat.single.exponent x.code := by
    by_contra hneg
    have hlt : FloatFormat.single.significand x.code < 2 ^ 24 :=
      FloatFormat.single.significand_lt _
    have hbits : (FloatFormat.single.significand x.code : Rat) < 2 ^ 24 := by exact_mod_cast hlt
    have hstep : (2 : Rat) ^ FloatFormat.single.exponent x.code ≤ 1 :=
      zpow_le_one_of_nonpos₀ one_le_two (not_le.1 hneg).le
    have hless := mul_le_of_le_one_right
      (Nat.cast_nonneg (α := Rat) (FloatFormat.single.significand x.code)) hstep
    rw [FloatFormat.magnitude] at hlimit
    linarith
  obtain ⟨n, hn⟩ := FloatFormat.exists_magnitude_eq_natCast hexponent
  have hne : n ≠ 0 := by
    rintro rfl
    rw [hn, Nat.cast_zero] at hlimit
    norm_num at hlimit
  have hcode : x.code ≠ 0 := by
    intro hzero
    rw [hzero, FloatFormat.magnitude_zero] at hlimit
    norm_num at hlimit
  obtain ⟨-, -, hrounds⟩ := widen_spec hx
  obtain ⟨m, hm⟩ := FloatFormat.exists_shortest_eq_natCast (F := .single) (by decide) .up hne hn
  rw [writtenRat_eq_shortest hcode, hm] at hrounds
  obtain ⟨k, hk⟩ := hrounds.exists_natCast
  exact ⟨den_toRat_of_magnitude hn, den_toRat_of_magnitude hk⟩

/-- The whole part of a number is kept below the limit, and above it if the number owns its
digits. -/
theorem truncate?_widen_iff (hx : x.isFinite) :
    x.widen.truncate? = x.truncate? ↔ |x.toRat| < 2 ^ 24 ∨ x.OwnsDigits := by
  obtain ⟨hfinite, -, -⟩ := widen_spec hx
  rw [ownsDigits_iff hx]
  constructor
  · intro h
    refine (lt_or_ge _ _).imp_right fun hlimit => ?_
    obtain ⟨hwhole, hwiden⟩ := den_toRat_of_le hx hlimit
    rw [truncate?, truncate?, toRat?, toRat?, if_pos hfinite, if_pos hx, Option.map_some,
      Option.map_some] at h
    exact eq_of_truncate hwiden hwhole (Option.some.inj h)
  · rintro (hlimit | hown)
    · exact truncate?_widen hx hlimit
    · rw [truncate?, truncate?, toRat?, toRat?, if_pos hfinite, if_pos hx, hown]

end BinaryFloat

end ColumnIndex
