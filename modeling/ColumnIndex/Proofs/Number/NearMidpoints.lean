import ColumnIndex.Proofs.Number.Magnitude
import ColumnIndex.Proofs.Number.Rounding
import Mathlib.Algebra.Order.Ring.Int
import Mathlib.Data.Int.GCD

/-!
# Decimal numbers next to midpoints

Halfway between two numbers of single precision lies a whole number of half steps. A decimal number
of few digits can be as near to it as double precision is fine, and is then taken for it. How near
it comes is a question about the multiples of one fraction, that of a decimal step and a half step:
if a fraction of its continued fraction is as near as the digits are few, only multiples of that
one count. So one fraction for each exponent settles which decimal numbers are next to a midpoint
without being it, and over all exponents there is a single one.

## Main definitions

* `fractionError` — how far a fraction is from another one.
* `FloatFormat.Settles` — what a fraction has to do for an exponent.

Main statement: `FloatFormat.eq_midpoint_or`.
-/
namespace ColumnIndex

/-! ## Multiples next to whole numbers -/

/-- How far `q * a` is from `p * b`. -/
def fractionError (a b p q : Nat) : Nat := ((q * a : Nat) - (p * b : Nat) : Int).natAbs

/-- If `p / q` is near to `a / b`, a multiple of `a / b` that is next to a whole number is the same
multiple of `p / q`. -/
theorem mul_eq_mul_of_near {a b p q limit precision d m : Nat}
    (hgood : limit * fractionError a b p q * precision + q * b < precision * b)
    (hd : d ≤ limit) (hnear : fractionError a b m d * precision ≤ b) : d * p = m * q := by
  have hb : (0 : Int) < b := by
    rcases Nat.eq_zero_or_pos b with rfl | hb
    · simp at hgood
    · exact_mod_cast hb
  have hidentity : (b * (d * p - m * q) : Int)
      = q * ((d * a : Nat) - (m * b : Nat)) - d * ((q * a : Nat) - (p * b : Nat)) := by
    push_cast
    ring
  have hbound : |(b * (d * p - m * q) : Int)|
      ≤ q * fractionError a b m d + d * fractionError a b p q := by
    rw [hidentity]
    refine (abs_sub _ _).trans (le_of_eq ?_)
    rw [abs_mul, abs_mul, Nat.abs_cast, Nat.abs_cast, Int.abs_eq_natAbs, Int.abs_eq_natAbs]
    rfl
  have hless : |(d * p - m * q : Int)| * (precision * b) < precision * b := by
    calc |(d * p - m * q : Int)| * (precision * b)
        = |(b * (d * p - m * q) : Int)| * precision := by
          rw [abs_mul, abs_of_pos hb]
          ring
      _ ≤ (q * fractionError a b m d + d * fractionError a b p q) * precision := by gcongr
      _ = q * (fractionError a b m d * precision : Nat)
          + (d * fractionError a b p q * precision : Nat) := by
          push_cast
          ring
      _ ≤ q * b + (limit * fractionError a b p q * precision : Nat) := by gcongr
      _ < precision * b := by
          rw [add_comm]
          exact_mod_cast hgood
  have hlt : |(d * p - m * q : Int)| < 1 := by
    by_contra hone
    have hmul := le_mul_of_one_le_left (by positivity : (0 : Int) ≤ precision * b) (not_lt.1 hone)
    omega
  have hsame : (d * p : Int) = m * q := sub_eq_zero.1 (Int.abs_lt_one_iff.1 hlt)
  exact_mod_cast hsame

/-- A multiple of a fraction is off by that multiple of its error. -/
theorem fractionError_mul (a b p q j : Nat) :
    fractionError a b (j * p) (j * q) = j * fractionError a b p q := by
  have hmul : ((j * q * a : Nat) - (j * p * b : Nat) : Int)
      = j * ((q * a : Nat) - (p * b : Nat)) := by
    push_cast
    ring
  rw [fractionError, hmul, Int.natAbs_mul, Int.natAbs_natCast]
  rfl

theorem cast_fractionError (a p q : Nat) {b : Nat} (hb : 0 < b) :
    (fractionError a b p q : Rat) / b = |q * (a / b : Rat) - p| := by
  have hb' : (0 : Rat) < b := by exact_mod_cast hb
  have hcast : (fractionError a b p q : Rat) = |(q * a - p * b : Rat)| := by
    rw [fractionError, Nat.cast_natAbs]
    push_cast
    rfl
  rw [hcast, ← abs_of_pos hb', ← abs_div, abs_of_pos hb', sub_div, mul_div_cancel_right₀ _ hb'.ne',
    mul_div_assoc]

/-- The fractions of a continued fraction, down to the first that is good enough. What is left of
the number is `x / y`, the last fraction is `p / q`, and the one before is `p' / q'`. -/
def firstConvergent (good : Nat → Nat → Bool) (x y p q p' q' : Nat) : Nat → Nat × Nat
  | 0 => (p, q)
  | n + 1 =>
    if good p q || y == 0 then (p, q)
    else firstConvergent good y (x % y) (x / y * p + p') (x / y * q + q') p q n

namespace FloatFormat

/-! ## One fraction for each exponent -/

/-- The finest decimal grid whose steps are, but for a small part of them, not shorter than two to
the exponent. -/
def coarseGrid (e : Int) : Int := (e * 30103 + 99999) / 100000

/-- A step of the grid in half steps of two to the exponent: the numerator. -/
def gridNum (e : Int) : Nat := 10 ^ (coarseGrid e).toNat * 2 ^ (1 - e).toNat

/-- The denominator. -/
def gridDen (e : Int) : Nat := 10 ^ (-coarseGrid e).toNat * 2 ^ (e - 1).toNat

theorem gridDen_pos (e : Int) : 0 < gridDen e :=
  Nat.mul_pos (Nat.pow_pos (by decide)) (Nat.pow_pos (by decide))

theorem gridNum_div_gridDen (e : Int) :
    (gridNum e : Rat) / gridDen e = 10 ^ coarseGrid e / 2 ^ (e - 1) := by
  have hneg : 1 - e = -(e - 1) := by ring
  rw [gridNum, gridDen, hneg]
  push_cast
  rw [pow_toNat ten_ne_zero (coarseGrid e), pow_toNat two_ne_zero (e - 1)]
  field_simp

/-- The fraction settles which of the numbers below `2 ^ 25` are next to a multiple of the step of
the grid, of at most `2 ^ 24` steps: the grid is the right one, the fraction is near enough to that
of the grid and in lowest terms, and its multiples are too great, exact, or not next to each other.
Only one fraction does less. -/
structure Settles (e : Int) (p q : Nat) : Prop where
  coarse : 2 * gridDen e * (2 ^ 28 - 1) ≤ gridNum e * 2 ^ 28
  fine : gridNum e * 2 ^ 28 < 20 * gridDen e * (2 ^ 28 - 1)
  good : 2 ^ 24 * fractionError (gridNum e) (gridDen e) p q * 2 ^ 28 + q * gridDen e
    < 2 ^ 28 * gridDen e
  coprime : Nat.gcd p q = 1
  apart : 2 ^ 24 < q ∨ 2 ^ 25 ≤ p ∨ fractionError (gridNum e) (gridDen e) p q = 0 ∨
    gridDen e < fractionError (gridNum e) (gridDen e) p q * 2 ^ 28 ∨ e = -107 ∧ p = 22841339

instance (e : Int) (p q : Nat) : Decidable (Settles e p q) :=
  decidable_of_iff (_ ∧ _ ∧ _ ∧ _ ∧ _)
    ⟨fun ⟨hcoarse, hfine, hgood, hcoprime, hapart⟩ => ⟨hcoarse, hfine, hgood, hcoprime, hapart⟩,
      fun h => ⟨h.coarse, h.fine, h.good, h.coprime, h.apart⟩⟩

/-- The fraction for an exponent. -/
def gridFraction (e : Int) : Nat × Nat :=
  let isGood (p q : Nat) : Bool :=
    2 ^ 24 * fractionError (gridNum e) (gridDen e) p q * 2 ^ 28 + q * gridDen e
      < 2 ^ 28 * gridDen e
  firstConvergent isGood (gridNum e) (gridDen e) 1 0 0 1 60

/-- There is a fraction for each exponent of a finite number of single precision. -/
theorem settles_gridFraction : ∀ n : Nat, n < 254 →
    Settles (n - 149) (gridFraction (n - 149)).1 (gridFraction (n - 149)).2 := by
  decide +kernel

theorem exists_settles {e : Int} (hleast : -149 ≤ e) (hmost : e ≤ 104) : ∃ p q, Settles e p q := by
  have h := settles_gridFraction (e + 149).toNat (by omega)
  have he : ((e + 149).toNat : Int) - 149 = e := by omega
  rw [he] at h
  exact ⟨_, _, h⟩

namespace Settles

variable {e : Int} {p q : Nat}

/-- What is next to a whole number is one, but for one number. -/
theorem error_eq_zero_or (h : Settles e p q) {d m : Nat} (hleast : 0 < d) (hd : d ≤ 2 ^ 24)
    (hm : m < 2 ^ 25) (hnear : fractionError (gridNum e) (gridDen e) m d * 2 ^ 28 ≤ gridDen e) :
    fractionError (gridNum e) (gridDen e) m d = 0 ∨ e = -107 ∧ m = 22841339 := by
  have hmul := mul_eq_mul_of_near h.good hd hnear
  obtain ⟨j, rfl⟩ : q ∣ d :=
    Nat.Coprime.dvd_of_dvd_mul_right (Nat.Coprime.symm h.coprime) ⟨m, by rw [hmul, Nat.mul_comm]⟩
  have hq : 0 < q := Nat.pos_of_mul_pos_right hleast
  have hj : 0 < j := Nat.pos_of_mul_pos_left hleast
  obtain rfl : m = j * p := by
    apply Nat.eq_of_mul_eq_mul_right hq
    rw [← hmul]
    ring
  have hqj : q ≤ q * j := Nat.le_mul_of_pos_right q hj
  have hpj : p ≤ j * p := Nat.le_mul_of_pos_left p hj
  rw [Nat.mul_comm q j, fractionError_mul] at hnear ⊢
  rcases h.apart with hgreat | hgreat | hexact | hapart | ⟨he, hp⟩
  · omega
  · omega
  · left
    rw [hexact, Nat.mul_zero]
  · have herror := Nat.le_mul_of_pos_left (fractionError (gridNum e) (gridDen e) p q) hj
    omega
  · right
    have hone : j = 1 := by
      by_contra hne
      have htwo := Nat.mul_le_mul_right p (by omega : 2 ≤ j)
      omega
    exact ⟨he, by rw [hone, Nat.one_mul, hp]⟩

/-- The grid has steps that are not shorter than two to the exponent, but for a small part, and the
next finer grid has shorter ones. -/
theorem zpow_coarseGrid (h : Settles e p q) :
    (2 : Rat) ^ e * (1 - 1 / 2 ^ 28) ≤ 10 ^ coarseGrid e ∧
      (10 : Rat) ^ (coarseGrid e - 1) < 2 ^ e * (1 - 1 / 2 ^ 28) := by
  have hden : (0 : Rat) < gridDen e := by exact_mod_cast gridDen_pos e
  have hhalf : (0 : Rat) < 2 ^ (e - 1) := by positivity
  have hquotient : (gridNum e : Rat) * 2 ^ (e - 1) = 10 ^ coarseGrid e * gridDen e := by
    rw [← div_eq_div_iff hden.ne' hhalf.ne', gridNum_div_gridDen]
  have hstep : (2 : Rat) ^ e = 2 * 2 ^ (e - 1) := by
    rw [mul_comm, ← zpow_add_one₀ two_ne_zero, sub_add_cancel]
  have hcoarse : (2 * gridDen e * (2 ^ 28 - 1) : Rat) ≤ gridNum e * 2 ^ 28 := by
    have h := h.coarse
    norm_num at h ⊢
    exact_mod_cast h
  have hfine : (gridNum e * 2 ^ 28 : Rat) < 20 * gridDen e * (2 ^ 28 - 1) := by
    have h := h.fine
    norm_num at h ⊢
    exact_mod_cast h
  have hcoarse' := mul_le_mul_of_nonneg_right hcoarse hhalf.le
  have hfine' := mul_lt_mul_of_pos_right hfine hhalf
  rw [mul_right_comm (gridNum e : Rat), hquotient] at hcoarse' hfine'
  constructor
  · rw [← mul_le_mul_iff_of_pos_right hden, hstep]
    linarith
  · rw [← mul_lt_mul_iff_of_pos_right hden, hstep, zpow_sub_one₀ ten_ne_zero]
    linarith

end Settles

/-- A number on a coarse decimal grid that is as near to a whole number of half steps as double
precision is fine is that number, but for one. -/
theorem eq_midpoint_or {e : Int} (hleast : -149 ≤ e) (hmost : e ≤ 104) {c m : Nat} {g : Int}
    (hc : 0 < c) (hm : m < 2 ^ 25) (hgrid : (2 : Rat) ^ e * (1 - 1 / 2 ^ 28) ≤ 10 ^ g)
    (hnear : |(c * 10 ^ g - m * 2 ^ (e - 1) : Rat)| * 2 ^ 28 ≤ 2 ^ (e - 1)) :
    (c * 10 ^ g : Rat) = m * 2 ^ (e - 1) ∨ e = -107 ∧ m = 22841339 := by
  have hden : (0 : Rat) < gridDen e := by exact_mod_cast gridDen_pos e
  have hhalf : (0 : Rat) < 2 ^ (e - 1) := by positivity
  have hstep : (2 : Rat) ^ e = 2 * 2 ^ (e - 1) := by
    rw [mul_comm, ← zpow_add_one₀ two_ne_zero, sub_add_cancel]
  obtain ⟨p, q, hsettles⟩ := exists_settles hleast hmost
  obtain ⟨hcoarse, hfine⟩ := hsettles.zpow_coarseGrid
  -- The number is on the grid that the fraction is for.
  obtain ⟨k, hk⟩ : ∃ k : Nat, g = coarseGrid e + k := by
    have hlt := (zpow_lt_zpow_iff_right₀ (by norm_num)).1 (hfine.trans_le hgrid)
    exact ⟨(g - coarseGrid e).toNat, by omega⟩
  have hvalue : (c * 10 ^ g : Rat) = (c * 10 ^ k : Nat) * 10 ^ coarseGrid e := by
    rw [hk, zpow_add₀ ten_ne_zero, zpow_natCast]
    push_cast
    ring
  rw [hvalue] at hnear ⊢
  have hd : c * 10 ^ k ≤ 2 ^ 24 := by
    have hm' : (m : Rat) ≤ 2 ^ 25 - 1 := by
      have hsucc : (m : Rat) + 1 ≤ (2 ^ 25 : Nat) := by exact_mod_cast hm
      norm_num at hsucc ⊢
      linarith
    have hmidpoint := mul_le_mul_of_nonneg_right hm' hhalf.le
    have habove := le_abs_self ((c * 10 ^ k : Nat) * 10 ^ coarseGrid e - m * 2 ^ (e - 1) : Rat)
    have hbelow : ((c * 10 ^ k : Nat) * 10 ^ coarseGrid e : Rat) ≤ 2 ^ 24 * 10 ^ coarseGrid e := by
      rw [hstep] at hcoarse
      linarith
    have hpow : (0 : Rat) < 10 ^ coarseGrid e := by positivity
    exact_mod_cast le_of_mul_le_mul_right hbelow hpow
  have herror : (fractionError (gridNum e) (gridDen e) m (c * 10 ^ k) : Rat) / gridDen e
      = |((c * 10 ^ k : Nat) * 10 ^ coarseGrid e - m * 2 ^ (e - 1) : Rat)| / 2 ^ (e - 1) := by
    rw [cast_fractionError _ _ _ (gridDen_pos e), gridNum_div_gridDen, ← abs_of_pos hhalf,
      ← abs_div, abs_of_pos hhalf, sub_div, mul_div_cancel_right₀ _ hhalf.ne', mul_div_assoc]
  have hnear' : fractionError (gridNum e) (gridDen e) m (c * 10 ^ k) * 2 ^ 28 ≤ gridDen e := by
    rw [← div_le_one hhalf, mul_div_right_comm, ← herror, ← mul_div_right_comm,
      div_le_one hden] at hnear
    exact_mod_cast hnear
  have hpos : 0 < c * 10 ^ k := Nat.mul_pos hc (Nat.pow_pos (by decide))
  refine (hsettles.error_eq_zero_or hpos hd hm hnear').imp_left fun hzero => ?_
  rw [hzero, Nat.cast_zero, zero_div, eq_comm, div_eq_zero_iff, or_iff_left hhalf.ne',
    abs_eq_zero, sub_eq_zero] at herror
  exact herror

end FloatFormat

end ColumnIndex
