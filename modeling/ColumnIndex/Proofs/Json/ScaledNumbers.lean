import ColumnIndex.Json.Token
import ColumnIndex.Proofs.Number.WholeRounding

/-!
# Scaled numbers

A fractional number is read in steps: its significand is rounded, and then multiplied or divided by
a rounded power of ten. So what is read is not always the nearest number, but each step errs by at
most half a unit of the last bit, and a number below a whole one is not read as one above it by a
step that is exact.

## Main definitions

* `Json.tenPower` — the rounded powers of ten.
* `Json.read?` — the number that a significand and a power of ten are read as.

Main statements: `Json.exists_read?_of_lt`, `Json.natCast_le_read?`, `Json.mul_le_read?`.
-/
namespace ColumnIndex

namespace FloatFormat

theorem double_infinityCode_ne : double.infinityCode ≠ 0 := by decide +kernel

theorem overflow_double : double.overflow = (36028797018963966 * 2 ^ 969 : Nat) := by
  have hquarters : 4 * double.significand (double.infinityCode - 1) + 2 = 36028797018963966 := by
    decide +kernel
  have hexponent : double.exponent (double.infinityCode - 1) - 2 = (969 : Nat) := by
    decide +kernel
  rw [overflow, midpoint_eq_quarters, hquarters, hexponent, zpow_natCast]
  simp only [Nat.cast_mul, Nat.cast_pow, Nat.cast_ofNat]

theorem natCast_lt_overflow {n : Nat} (h : n < 36028797018963966 * 2 ^ 969) :
    (n : Rat) < double.overflow := by
  rw [overflow_double]
  exact Nat.cast_lt.2 h

theorem overflow_le_natCast {n : Nat} (h : 36028797018963966 * 2 ^ 969 ≤ n) :
    double.overflow ≤ n := by
  rw [overflow_double]
  exact Nat.cast_le.2 h

end FloatFormat

namespace BinaryFloat

/-- A number does not pass a whole one of fifty-three bits when it is rounded. -/
theorem IsNearest.natCast_le {x : Double} {q : Rat} (h : x.IsNearest q) {n : Nat}
    (hn : n ≤ 2 ^ 53) (hq : n ≤ q) : n ≤ x.toRat := by
  obtain ⟨code, hcode⟩ := FloatFormat.exists_double_magnitude hn (e := 0) (by decide)
  rw [zpow_zero, mul_one] at hcode
  rw [← hcode] at hq ⊢
  exact h.magnitude_le hq

/-- A product of whole numbers does not pass a whole one of fifty-three bits when its factors are
rounded: a factor that is cut at that number is kept. -/
theorem IsNearest.natCast_le_mul {x y : Double} {a b n : Nat} (hx : x.IsNearest a)
    (hy : y.IsNearest b) (hn : n ≤ 2 ^ 53) (h : n ≤ a * b) : n ≤ x.toRat * y.toRat := by
  rcases Nat.eq_zero_or_pos n with rfl | hpos
  · rw [Nat.cast_zero]
    exact mul_nonneg hx.nonneg hy.nonneg
  have ha : 0 < a := Nat.pos_of_mul_pos_right (hpos.trans_le h)
  have hb : 0 < b := Nat.pos_of_mul_pos_left (hpos.trans_le h)
  have hcut : n ≤ min a n * min b n := by
    rcases Nat.le_total a n with hsmall | hlarge
    · rw [Nat.min_eq_left hsmall]
      rcases Nat.le_total b n with hsmall' | hlarge'
      · rwa [Nat.min_eq_left hsmall']
      · rw [Nat.min_eq_right hlarge']
        exact Nat.le_mul_of_pos_left n ha
    · rw [Nat.min_eq_right hlarge]
      exact Nat.le_mul_of_pos_right n (by omega)
  have hfactor := hx.natCast_le (n := min a n) (by omega)
    (by exact_mod_cast Nat.min_le_left _ _)
  have hfactor' := hy.natCast_le (n := min b n) (by omega)
    (by exact_mod_cast Nat.min_le_left _ _)
  calc (n : Rat) ≤ (min a n : Nat) * (min b n : Nat) := by exact_mod_cast hcut
    _ ≤ x.toRat * y.toRat := mul_le_mul hfactor hfactor' (Nat.cast_nonneg _) hx.nonneg

end BinaryFloat

namespace Json

open BinaryFloat

/-! ## Powers of ten -/

/-- A power of ten, rounded. -/
def tenPower (j : Nat) : Double := .ofDecimal false 1 j

theorem tenPower_eq (j : Nat) : tenPower j = .ofRat false (10 ^ j) := by
  rw [tenPower, ofDecimal_eq (by decide) (by decide), signed_false, Nat.cast_one, one_mul,
    zpow_natCast]

theorem isNearest_tenPower {j : Nat} (hj : j ≤ 308) : (tenPower j).IsNearest (10 ^ j) := by
  rw [tenPower_eq]
  apply isNearest_ofRat (by decide) FloatFormat.double_infinityCode_ne (by positivity)
  have hlimit : 10 ^ 308 < 36028797018963966 * 2 ^ 969 := by decide +kernel
  have hpow := Nat.pow_le_pow_right (n := 10) (by decide) hj
  have hless := FloatFormat.natCast_lt_overflow (hpow.trans_lt hlimit)
  rwa [Nat.cast_pow, Nat.cast_ofNat] at hless

theorem one_le_tenPower {j : Nat} (hj : j ≤ 308) : 1 ≤ (tenPower j).toRat := by
  have hone := (isNearest_tenPower hj).natCast_le (n := 1) (by decide)
    (by exact_mod_cast Nat.one_le_pow j 10 (by decide))
  exact_mod_cast hone

/-- The lesser powers of ten are exact. -/
theorem holds_tenPower {j : Nat} (hj : j ≤ 22) : (tenPower j).Holds (10 ^ j) := by
  obtain ⟨code, hcode, hholds⟩ := isNearest_tenPower (hj.trans (by decide))
  have hfive : 5 ^ j ≤ 2 ^ 53 :=
    (Nat.pow_le_pow_right (by decide) hj).trans (by decide)
  obtain ⟨c, hc⟩ := FloatFormat.exists_double_magnitude hfive (e := j) (by omega)
  have hvalue : FloatFormat.double.magnitude c = 10 ^ j := by
    rw [hc, zpow_natCast]
    push_cast
    rw [← mul_pow]
    norm_num
  rw [← hvalue] at hcode
  rwa [hcode.unique (FloatFormat.Rounds.magnitude c), hvalue] at hholds

/-! ## Steps -/

variable {steps : Nat} {x y : Double} {a : Rat} {e : Int}

theorem scaled_of_nonneg (he : 0 ≤ e) (hmost : e ≤ 308) :
    scaled (steps + 1) x e
      = if (x.mul (tenPower e.toNat)).isInfinite then none
        else some (x.mul (tenPower e.toNat)) := by
  have hpower : (e.natAbs : Int) = e.toNat := by omega
  rw [scaled, if_pos ⟨by omega, hmost⟩]
  dsimp only
  rw [if_pos he, hpower]
  rfl

theorem scaled_of_neg (hleast : -308 ≤ e) (he : e < 0) :
    scaled (steps + 1) x e
      = if (x.div (tenPower (-e).toNat)).isInfinite then none
        else some (x.div (tenPower (-e).toNat)) := by
  have hpower : (e.natAbs : Int) = (-e).toNat := by omega
  rw [scaled, if_pos ⟨hleast, by omega⟩]
  dsimp only
  rw [if_neg (Int.not_le.2 he), hpower]
  rfl

/-- On the way down a number stays finite. -/
theorem exists_scaled_of_neg (steps : Nat) (hx : x.Holds a) (ha : 0 ≤ a) (he : e < 0) :
    ∃ y b, scaled steps x e = some y ∧ y.Holds b ∧ 0 ≤ b := by
  induction steps generalizing x a e with
  | zero => exact ⟨x, a, rfl, hx, ha⟩
  | succ steps ih =>
    have hdiv : ∀ {j : Nat}, j ≤ 308 →
        (x.div (tenPower j)).Holds (x.div (tenPower j)).toRat ∧
          0 ≤ (x.div (tenPower j)).toRat := by
      intro j hj
      obtain ⟨hnearest, -⟩ := hx.isNearest_div (by decide) ha (isNearest_tenPower hj).holds
        (one_le_tenPower hj)
      exact ⟨hnearest.holds, hnearest.nonneg⟩
    by_cases hleast : -308 ≤ e
    · obtain ⟨hholds, hnonneg⟩ := hdiv (j := (-e).toNat) (by omega)
      rw [scaled_of_neg hleast he, hholds.isInfinite_eq]
      exact ⟨_, _, rfl, hholds, hnonneg⟩
    · rw [scaled, if_neg fun h => hleast h.1]
      by_cases hzero : x.isZero
      · rw [if_pos hzero]
        exact ⟨x, a, rfl, hx, ha⟩
      · obtain ⟨hholds, hnonneg⟩ := hdiv (j := 308) le_rfl
        rw [if_neg hzero, if_neg (Int.not_le.2 he)]
        exact ih hholds hnonneg (by omega)

/-! ## Significands and powers of ten -/

/-- The number that a significand times a power of ten is read as. -/
def read? (s : Scientific) : Option Double := scaled 3 (.ofInt s.coefficient) s.exponent

theorem fractional_eq (negative : Bool) (s : Scientific) :
    fractional negative s.coefficient s.exponent
      = match read? s with
        | some x => .ok (.number (.double (if negative then x.neg else x)))
        | none => .error .numberTooLarge := rfl

theorem isNearest_ofInt {c : Nat} (hc : c < 2 ^ 64) : (ofInt c : Double).IsNearest c := by
  have hlimit : 2 ^ 64 ≤ 36028797018963966 * 2 ^ 969 := by decide +kernel
  rw [ofInt, Int.cast_natCast]
  exact isNearest_ofRat (by decide) FloatFormat.double_infinityCode_ne (Nat.cast_nonneg c)
    (FloatFormat.natCast_lt_overflow (hc.trans_le hlimit))

section Read

variable {s : Scientific} (hs : s.coefficient < 2 ^ 64)
include hs

/-- What is read is finite and has no minus sign. -/
theorem holds_of_read? (h : read? s = some y) : y.Holds y.toRat ∧ 0 ≤ y.toRat := by
  have hx := isNearest_ofInt hs
  by_cases he : s.exponent < 0
  · obtain ⟨z, b, hz, hholds, hb⟩ := exists_scaled_of_neg 3 hx.holds hx.nonneg he
    obtain rfl : z = y := Option.some.inj (hz.symm.trans h)
    rw [hholds.toRat_eq]
    exact ⟨hholds, hb⟩
  · by_cases hmost : s.exponent ≤ 308
    · have hp := isNearest_tenPower (j := s.exponent.toNat) (by omega)
      rw [read?, scaled_of_nonneg (Int.not_lt.1 he) hmost, hx.holds.mul_eq hp.holds] at h
      split at h
      · cases h
      · rename_i hfinite
        obtain rfl := Option.some.inj h
        have hy := isNearest_of_isInfinite_eq (by decide) (mul_nonneg hx.nonneg hp.nonneg)
          (Bool.eq_false_of_not_eq_true hfinite)
        exact ⟨hy.holds, hy.nonneg⟩
    · rw [read?, scaled, if_neg fun h => hmost h.2] at h
      split at h
      · obtain rfl := Option.some.inj h
        exact ⟨hx.holds, hx.nonneg⟩
      · rw [if_pos (Int.not_lt.1 he)] at h
        cases h

/-- What is far enough below the overflow can be read. -/
theorem exists_read?_of_lt (hzero : s.coefficient = 0 → s.exponent < 0)
    (h : s.toRat * (2 ^ 53 + 1) ^ 2 < FloatFormat.double.overflow * (2 ^ 53) ^ 2) :
    ∃ y, read? s = some y := by
  have hx := isNearest_ofInt hs
  by_cases he : s.exponent < 0
  · obtain ⟨y, -, hy, -⟩ := exists_scaled_of_neg 3 hx.holds hx.nonneg he
    exact ⟨y, hy⟩
  · obtain ⟨e, hexponent⟩ : ∃ e : Nat, s.exponent = e := ⟨s.exponent.toNat, by omega⟩
    have hone : (1 : Rat) ≤ s.coefficient := by
      have hne : s.coefficient ≠ 0 := fun hc => he (hzero hc)
      exact_mod_cast Nat.pos_of_ne_zero hne
    rw [Scientific.toRat, hexponent, zpow_natCast] at h
    have hmost : e ≤ 308 := by
      by_contra hlarge
      have hpow := Nat.pow_le_pow_right (n := 10) (i := 309) (by decide) (Nat.lt_of_not_le hlarge)
      have hlimit : 36028797018963966 * 2 ^ 969 ≤ 10 ^ 309 := by decide +kernel
      have hpower := FloatFormat.overflow_le_natCast (hlimit.trans hpow)
      rw [Nat.cast_pow, Nat.cast_ofNat] at hpower
      have hvalue : FloatFormat.double.overflow ≤ s.coefficient * 10 ^ e :=
        hpower.trans (le_mul_of_one_le_left (by positivity) hone)
      have hover : FloatFormat.double.overflow * (2 ^ 53) ^ 2
          ≤ s.coefficient * 10 ^ e * (2 ^ 53 + 1) ^ 2 := by
        gcongr
        norm_num
      exact absurd h hover.not_gt
    have hp := isNearest_tenPower (j := e) hmost
    have hproduct : (ofInt s.coefficient : Double).toRat * (tenPower e).toRat
        < FloatFormat.double.overflow :=
      hx.mul_lt hp (double_normal_le (n := 0) (by decide) (by simpa using hone))
        (double_normal_le (n := 0) (by decide) (by simpa using one_le_pow₀ (by norm_num))) h
    have hy := isNearest_ofRat (F := .double) (by decide) FloatFormat.double_infinityCode_ne
      (mul_nonneg hx.nonneg hp.nonneg) hproduct
    rw [read?, hexponent, scaled_of_nonneg (Int.natCast_nonneg e) (by exact_mod_cast hmost),
      Int.toNat_natCast, hx.holds.mul_eq hp.holds, hy.holds.isInfinite_eq]
    exact ⟨_, rfl⟩

/-- What is not divided does not pass a whole number of fifty-three bits. -/
theorem natCast_le_read? (he : 0 ≤ s.exponent) (h : read? s = some y) {n : Nat}
    (hn : n ≤ 2 ^ 53) (hle : n ≤ s.toRat) : n ≤ y.toRat := by
  obtain ⟨-, hnonneg⟩ := holds_of_read? hs h
  have hx := isNearest_ofInt hs
  by_cases hc : s.coefficient = 0
  · rw [Scientific.toRat, hc, Nat.cast_zero, zero_mul] at hle
    exact hle.trans hnonneg
  · obtain ⟨e, hexponent⟩ : ∃ e : Nat, s.exponent = e := ⟨s.exponent.toNat, by omega⟩
    have hle' : n ≤ s.coefficient * 10 ^ e := by
      rw [Scientific.toRat, hexponent, zpow_natCast] at hle
      exact_mod_cast hle
    rw [read?, hexponent] at h
    by_cases hmost : e ≤ 308
    · have hp := isNearest_tenPower hmost
      rw [scaled_of_nonneg (Int.natCast_nonneg e) (by exact_mod_cast hmost), Int.toNat_natCast,
        hx.holds.mul_eq hp.holds] at h
      split at h
      · cases h
      · rename_i hfinite
        obtain rfl := Option.some.inj h
        have hy := isNearest_of_isInfinite_eq (by decide) (mul_nonneg hx.nonneg hp.nonneg)
          (Bool.eq_false_of_not_eq_true hfinite)
        have hpower : (tenPower e).IsNearest (10 ^ e : Nat) := by
          rwa [Nat.cast_pow, Nat.cast_ofNat]
        exact hy.natCast_le hn (hx.natCast_le_mul hpower hn hle')
    · have hmost' : ¬((e : Int) ≤ 308) := by exact_mod_cast hmost
      rw [scaled, if_neg fun h => hmost' h.2] at h
      split at h
      · obtain rfl := Option.some.inj h
        rename_i hzero
        have hone := hx.natCast_le (n := 1) (by decide)
          (by exact_mod_cast Nat.pos_of_ne_zero hc)
        rw [hx.holds.isZero_iff] at hzero
        rw [hzero] at hone
        norm_num at hone
      · rw [if_pos (Int.natCast_nonneg e)] at h
        cases h

/-- What is divided by an exact power of ten is read with two small errors. -/
theorem mul_le_read? (hne : s.coefficient ≠ 0) (hleast : -22 ≤ s.exponent) (he : s.exponent < 0)
    (h : read? s = some y) : s.toRat * (2 ^ 53 - 1) ^ 2 ≤ y.toRat * (2 ^ 53) ^ 2 := by
  obtain ⟨j, hj⟩ : ∃ j : Nat, s.exponent = -j := ⟨(-s.exponent).toNat, by omega⟩
  have hpower : (tenPower j).Holds (10 ^ j) := holds_tenPower (by omega)
  have hone : (1 : Rat) ≤ 10 ^ j := one_le_pow₀ (by norm_num)
  have hx := isNearest_ofInt hs
  have hcoefficient : (1 : Rat) ≤ s.coefficient := by exact_mod_cast Nat.pos_of_ne_zero hne
  obtain ⟨hy, -⟩ := hx.holds.isNearest_div (by decide) hx.nonneg hpower hone
  rw [read?, hj, scaled_of_neg (by omega) (by omega), neg_neg, Int.toNat_natCast,
    hy.holds.isInfinite_eq] at h
  obtain rfl := Option.some.inj h
  set a := (ofInt s.coefficient : Double).toRat with ha
  set b := ((ofInt s.coefficient : Double).div (tenPower j)).toRat with hb
  have hlow : 1 ≤ a := by
    have := hx.natCast_le (n := 1) (by decide) (by exact_mod_cast hcoefficient)
    exact_mod_cast this
  have hquotient : 2 ^ (-(100 : Nat) : Int) ≤ a / 10 ^ j := by
    have hpow : (10 : Rat) ^ j ≤ 10 ^ 22 := pow_le_pow_right₀ (by norm_num) (by omega)
    rw [le_div_iff₀ (by positivity)]
    calc (2 : Rat) ^ (-(100 : Nat) : Int) * 10 ^ j ≤ 2 ^ (-(100 : Nat) : Int) * 10 ^ 22 := by
          gcongr
      _ ≤ 1 := by norm_num
      _ ≤ a := hlow
  have hfirst : s.coefficient * (2 ^ 53 - 1) ≤ a * 2 ^ 53 :=
    hx.mul_le_toRat_mul (double_normal_le (n := 0) (by decide) (by simpa using hcoefficient))
  have hsecond : a / 10 ^ j * (2 ^ 53 - 1) ≤ b * 2 ^ 53 :=
    hy.mul_le_toRat_mul (double_normal_le (by decide) hquotient)
  rw [Scientific.toRat_eq_div hj]
  calc s.coefficient / 10 ^ j * (2 ^ 53 - 1 : Rat) ^ 2
      = s.coefficient * (2 ^ 53 - 1) / 10 ^ j * (2 ^ 53 - 1) := by ring
    _ ≤ a * 2 ^ 53 / 10 ^ j * (2 ^ 53 - 1) := by
        gcongr
    _ = a / 10 ^ j * (2 ^ 53 - 1) * 2 ^ 53 := by ring
    _ ≤ b * 2 ^ 53 * 2 ^ 53 := by gcongr
    _ = b * (2 ^ 53) ^ 2 := by ring

end Read

end Json

end ColumnIndex
