import ColumnIndex.Proofs.Number.FiniteWidening
import ColumnIndex.Proofs.Number.NearestFinite

/-!
# Rounding next to whole numbers

Double precision has all whole numbers of fifty-three bits, so rounding does not pass them. It can
reach the next one, but only from a place that is nearer to it than half a unit of the last bit. A
number of few digits is farther away, wherever its point is.

Main statement: `BinaryFloat.IsNearest.floor_eq`.
-/
namespace ColumnIndex

theorem truncate_of_nonneg {q : Rat} (h : 0 ≤ q) : truncate q = ⌊q⌋ := by
  rw [truncate, Int.tdiv_eq_ediv_of_nonneg (Rat.num_nonneg.2 h), ← Rat.floor_def]
  rfl

/-- Digits before the point are the whole part of all digits. -/
theorem floor_div_pow (n k : Nat) : ⌊(n / 10 ^ k : Rat)⌋ = (n / 10 ^ k : Nat) := by
  exact_mod_cast Rat.floor_natCast_div_natCast n (10 ^ k)

/-- A number of few digits is far enough from the next whole number. -/
theorem apart_of_lt {n : Nat} (places : Nat) (h : n < 2 ^ 53) :
    (n / 10 ^ places : Rat) * (2 ^ 53 + 1) < (⌊(n / 10 ^ places : Rat)⌋ + 1) * 2 ^ 53 := by
  have hpower : (0 : Rat) < 10 ^ places := by positivity
  have hstep : (n : Rat) + 1 ≤ 10 ^ places * ((n / 10 ^ places : Nat) + 1) := by
    exact_mod_cast Nat.lt_mul_div_succ n (b := 10 ^ places) (by positivity)
  have hbits : (n : Rat) < 2 ^ 53 := by exact_mod_cast h
  rw [floor_div_pow, Int.cast_natCast, div_mul_eq_mul_div, div_lt_iff₀ hpower]
  linarith

namespace BinaryFloat

/-- Any number from one on is far from the smallest ones. -/
theorem double_normal_le {q : Rat} {n : Nat} (hn : n ≤ 1022) (hq : 2 ^ (-(n : Int)) ≤ q) :
    2 ^ (FloatFormat.double.minExponent + FloatFormat.double.fractionBits) ≤ q := by
  refine le_trans (zpow_le_zpow_right₀ one_le_two ?_) hq
  have hleast : FloatFormat.double.minExponent + FloatFormat.double.fractionBits = -1022 := by
    decide
  omega

variable {x : Double} {q : Rat}

/-- A whole number of fifty-three bits, and zeros behind them, is not passed downwards. -/
theorem IsNearest.le_floor (h : x.IsNearest q) {n : Nat} (hn : n ≤ 2 ^ 53) (e : Nat)
    (hle : ((n * 2 ^ e : Nat) : Int) ≤ ⌊q⌋) : ((n * 2 ^ e : Nat) : Int) ≤ ⌊x.toRat⌋ := by
  obtain ⟨code, hcode⟩ := FloatFormat.exists_double_magnitude hn (e := e) (by omega)
  have hvalue : FloatFormat.double.magnitude code = (n * 2 ^ e : Nat) := by
    rw [hcode, zpow_natCast]
    push_cast
    rfl
  rw [Int.le_floor, Int.cast_natCast] at hle ⊢
  rw [← hvalue] at hle ⊢
  exact h.magnitude_le hle

/-- A number that is not next to the whole one above it is rounded to one of its whole part. -/
theorem IsNearest.floor_eq (h : x.IsNearest q) (hq : 0 ≤ q)
    (hapart : q * (2 ^ 53 + 1) < (⌊q⌋ + 1) * 2 ^ 53) : ⌊x.toRat⌋ = ⌊q⌋ := by
  obtain ⟨n, hn⟩ := Int.eq_ofNat_of_zero_le (Int.floor_nonneg.2 hq)
  have hfloor : (⌊q⌋ : Rat) ≤ q := Int.floor_le q
  have hless : q < 2 ^ 53 := by linarith
  have hbits : n ≤ 2 ^ 53 := by
    have hcast : (n : Rat) < 2 ^ 53 := by
      rw [hn, Int.cast_natCast] at hfloor
      exact hfloor.trans_lt hless
    exact_mod_cast hcast.le
  have hlow : ⌊q⌋ ≤ ⌊x.toRat⌋ := by
    have hkept := h.le_floor hbits 0 (by rw [hn, pow_zero, Nat.mul_one])
    rwa [pow_zero, Nat.mul_one, ← hn] at hkept
  have hhigh : x.toRat < ⌊q⌋ + 1 := by
    by_cases hhalf : (2 : Rat) ^ (-((1 : Nat) : Int)) ≤ q
    · have hgrown : x.toRat * 2 ^ 53 ≤ q * (2 ^ 53 + 1) :=
        h.toRat_mul_le (double_normal_le (by decide) hhalf)
      exact lt_of_mul_lt_mul_right (hgrown.trans_lt hapart) (by positivity)
    · obtain ⟨code, hcode⟩ := FloatFormat.exists_double_magnitude (n := 1) (by decide)
        (e := -((1 : Nat) : Int)) (by decide)
      rw [Nat.cast_one, one_mul] at hcode
      have hsmall := h.le_magnitude (c := code) (by rw [hcode]; exact (not_le.1 hhalf).le)
      rw [hcode] at hsmall
      have hone : (2 : Rat) ^ (-((1 : Nat) : Int)) < 1 := by norm_num
      have hzero : (0 : Rat) ≤ ⌊q⌋ := by exact_mod_cast Int.floor_nonneg.2 hq
      linarith
  have hceil : ⌊x.toRat⌋ < ⌊q⌋ + 1 := by
    rw [Int.floor_lt]
    push_cast
    exact hhigh
  omega

end BinaryFloat

end ColumnIndex
