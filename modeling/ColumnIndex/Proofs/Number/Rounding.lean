import ColumnIndex.Number.Rounding
import Mathlib.Algebra.Order.Field.Power
import Mathlib.Algebra.Order.Field.Rat
import Mathlib.Data.Rat.Floor
import Mathlib.Tactic.Linarith
import Mathlib.Tactic.Positivity

/-!
# Rounding of rational numbers

Quotients of natural numbers are computed with, and rational numbers are reasoned about. Each
rounding of a quotient is described here by the rational number that the quotient denotes, so that
it does not matter by which numerator and denominator that number was given.

Main statements: `zpow_floorLog2_le`, `IsNearestEven.mono`, `isNearestEven_roundHalfEven`,
`roundHalfUp_eq_of_abs_sub_lt`.
-/
namespace ColumnIndex

theorem ten_ne_zero : (10 : Rat) ≠ 0 := by norm_num

/-- A power with an exponent of either sign as a quotient of two powers. -/
theorem pow_toNat {b : Rat} (hb : b ≠ 0) (e : Int) : b ^ e.toNat = b ^ e * b ^ (-e).toNat := by
  rw [← zpow_natCast, ← zpow_natCast, ← zpow_add₀ hb]
  congr 1
  omega

/-- The quotient of which the bits of a number are the whole part. -/
theorem div_scaled (num den : Nat) (e : Int) :
    ((num * 2 ^ (-e).toNat : Nat) : Rat) / (den * 2 ^ e.toNat : Nat) = num / den / 2 ^ e := by
  push_cast
  rw [pow_toNat two_ne_zero e, div_div, ← mul_assoc,
    mul_div_mul_right _ _ (pow_ne_zero _ two_ne_zero)]

/-- The magnitude of a rational number as a quotient of natural numbers. -/
theorem abs_eq_natAbs_div (q : Rat) : |q| = q.num.natAbs / q.den := by
  conv_lhs => rw [← q.num_div_den]
  rw [abs_div, Nat.abs_cast, Nat.cast_natAbs, Int.cast_abs]

/-! ## The power of two below a quotient -/

theorem two_pow_log2_le {n : Nat} (hn : n ≠ 0) : ((2 : Rat) ^ (n.log2 : Int)) ≤ n := by
  rw [zpow_natCast]
  exact_mod_cast Nat.log2_self_le hn

theorem lt_two_pow_log2 (n : Nat) : (n : Rat) < 2 ^ ((n.log2 : Int) + 1) := by
  have h : n < 2 ^ (n.log2 + 1) := Nat.lt_log2_self
  exact_mod_cast h

/-- `floorLog2` finds the power of two next below a positive quotient. -/
theorem zpow_floorLog2_le {num den : Nat} (hn : num ≠ 0) (hd : den ≠ 0) :
    (2 : Rat) ^ floorLog2 num den ≤ num / den ∧
      (num / den : Rat) < 2 ^ (floorLog2 num den + 1) := by
  have hden : (0 : Rat) < den := by positivity
  have hlow : (2 : Rat) ^ ((num.log2 : Int) - den.log2 - 1) ≤ num / den := by
    have h : (2 : Rat) ^ ((num.log2 : Int) - den.log2 - 1) * 2 ^ ((den.log2 : Int) + 1)
        = 2 ^ (num.log2 : Int) := by
      rw [← zpow_add₀ two_ne_zero]
      congr 1
      omega
    rw [le_div_iff₀ hden]
    calc (2 : Rat) ^ ((num.log2 : Int) - den.log2 - 1) * den
        ≤ 2 ^ ((num.log2 : Int) - den.log2 - 1) * 2 ^ ((den.log2 : Int) + 1) := by
          gcongr
          exact (lt_two_pow_log2 den).le
      _ ≤ num := h ▸ two_pow_log2_le hn
  have hhigh : (num / den : Rat) < 2 ^ ((num.log2 : Int) - den.log2 + 1) := by
    have h : (2 : Rat) ^ ((num.log2 : Int) - den.log2 + 1) * 2 ^ (den.log2 : Int)
        = 2 ^ ((num.log2 : Int) + 1) := by
      rw [← zpow_add₀ two_ne_zero]
      congr 1
      omega
    rw [div_lt_iff₀ hden]
    calc (num : Rat) < 2 ^ ((num.log2 : Int) + 1) := lt_two_pow_log2 num
      _ = 2 ^ ((num.log2 : Int) - den.log2 + 1) * 2 ^ (den.log2 : Int) := h.symm
      _ ≤ 2 ^ ((num.log2 : Int) - den.log2 + 1) * den := by
          gcongr
          exact two_pow_log2_le hd
  have hcompare : ∀ e : Int, num * 2 ^ (-e).toNat < den * 2 ^ e.toNat ↔
      (num / den : Rat) < 2 ^ e := by
    intro e
    have hscaled : (0 : Rat) < (den * 2 ^ e.toNat : Nat) := by positivity
    rw [← div_lt_one (by positivity : (0 : Rat) < 2 ^ e), ← div_scaled, div_lt_one hscaled,
      Nat.cast_lt]
  unfold floorLog2
  dsimp only
  split
  · rename_i hless
    rw [hcompare] at hless
    exact ⟨hlow, by simpa using hless⟩
  · rename_i hless
    rw [hcompare, not_lt] at hless
    exact ⟨hless, hhigh⟩

/-- The power of two next below a quotient is the only one with both bounds. -/
theorem floorLog2_lt_iff {num den : Nat} (hn : num ≠ 0) (hd : den ≠ 0) (e : Int) :
    floorLog2 num den < e ↔ (num / den : Rat) < 2 ^ e := by
  obtain ⟨hlow, hhigh⟩ := zpow_floorLog2_le hn hd
  constructor
  · intro h
    calc (num / den : Rat) < 2 ^ (floorLog2 num den + 1) := hhigh
      _ ≤ 2 ^ e := zpow_le_zpow_right₀ one_le_two (by omega)
  · intro h
    exact (zpow_lt_zpow_iff_right₀ one_lt_two).1 (lt_of_le_of_lt hlow h)

/-! ## To the nearest whole number -/

/-- A whole number is nearest to a rational one, and even if there are two. -/
structure IsNearestEven (q : Rat) (n : Nat) : Prop where
  le : (n : Rat) - 1 / 2 ≤ q
  ge : q ≤ n + 1 / 2
  even : q = n - 1 / 2 ∨ q = n + 1 / 2 → n % 2 = 0

namespace IsNearestEven

variable {q q' : Rat} {n n' : Nat}

/-- Greater numbers are rounded to greater ones. -/
theorem mono (h : IsNearestEven q n) (h' : IsNearestEven q' n') (hq : q ≤ q') : n ≤ n' := by
  by_contra hlt
  have hn : (n' : Rat) + 1 ≤ n := by
    have : n' + 1 ≤ n := by omega
    exact_mod_cast this
  have hlow := h.le
  have hhigh := h'.ge
  -- Only one place is left for both numbers: halfway between `n'` and `n`, which are then even.
  have hnext : (n : Rat) = n' + 1 := by linarith
  have heven := h.even (Or.inl (by linarith))
  have heven' := h'.even (Or.inr (by linarith))
  have : n = n' + 1 := by exact_mod_cast hnext
  omega

theorem natCast (n : Nat) : IsNearestEven n n where
  le := by linarith
  ge := by linarith
  even := by
    rintro (h | h)
    · linarith
    · linarith

/-- Halfway between two whole numbers is rounded to the even one. -/
theorem halfway (n : Nat) : IsNearestEven (n + 1 / 2) (n + n % 2) := by
  rcases Nat.mod_two_eq_zero_or_one n with h | h
  · rw [h]
    refine ⟨by push_cast; linarith, by push_cast; linarith, fun _ => by omega⟩
  · rw [h]
    refine ⟨by push_cast; linarith, by push_cast; linarith, fun _ => by omega⟩

end IsNearestEven

/-- A quotient is rounded to the whole number that is nearest to what it denotes. -/
theorem isNearestEven_roundHalfEven (num : Nat) {den : Nat} (hd : den ≠ 0) :
    IsNearestEven (num / den) (roundHalfEven num den) := by
  have hden : (0 : Rat) < den := by positivity
  have hquotient : (num / den : Rat) = (num / den : Nat) + (num % den : Nat) / den := by
    have hparts : (num : Rat) = (num / den : Nat) * den + (num % den : Nat) := by
      exact_mod_cast (Nat.div_add_mod' num den).symm
    rw [div_eq_iff hden.ne', add_mul, div_mul_cancel₀ _ hden.ne', ← hparts]
  have hrest : ((num % den : Nat) : Rat) / den < 1 := by
    rw [div_lt_one hden]
    exact_mod_cast Nat.mod_lt num (by omega)
  have hrest0 : (0 : Rat) ≤ ((num % den : Nat) : Rat) / den := by positivity
  have hbelow : ((num % den : Nat) : Rat) / den < 1 / 2 ↔ 2 * (num % den) < den := by
    rw [div_lt_div_iff₀ hden two_pos]
    norm_cast
    omega
  have habove : 1 / 2 < ((num % den : Nat) : Rat) / den ↔ den < 2 * (num % den) := by
    rw [div_lt_div_iff₀ two_pos hden]
    norm_cast
    omega
  rw [hquotient]
  unfold roundHalfEven
  dsimp only
  split
  · rename_i h
    rw [← hbelow] at h
    refine ⟨by linarith, by linarith, ?_⟩
    rintro (heq | heq)
    · linarith
    · linarith
  · rename_i hnot
    rw [← hbelow, not_lt] at hnot
    split
    · rename_i h
      rw [← habove] at h
      refine ⟨by push_cast; linarith, by push_cast; linarith, ?_⟩
      push_cast
      rintro (heq | heq)
      · linarith
      · linarith
    · rename_i h
      rw [← habove, not_lt] at h
      rw [le_antisymm h hnot]
      exact IsNearestEven.halfway _

/-- `roundHalfUp` is at most half a unit away. -/
theorem abs_roundHalfUp_sub_le (num : Nat) {den : Nat} (hd : den ≠ 0) :
    |(roundHalfUp num den : Rat) - num / den| ≤ 1 / 2 := by
  have hden : (0 : Rat) < den := by positivity
  have hlow : roundHalfUp num den * (2 * den) ≤ 2 * num + den := Nat.div_mul_le_self _ _
  have hhigh : 2 * num + den < (roundHalfUp num den + 1) * (2 * den) := by
    have h := Nat.lt_div_mul_add (a := 2 * num + den) (b := 2 * den) (by omega)
    rw [Nat.add_mul, Nat.one_mul]
    exact h
  have hlow' : (roundHalfUp num den : Rat) * (2 * den) ≤ 2 * num + den := by exact_mod_cast hlow
  have hhigh' : (2 * num + den : Rat) < (roundHalfUp num den + 1) * (2 * den) := by
    exact_mod_cast hhigh
  rw [abs_le]
  constructor
  · rw [neg_le_sub_iff_le_add, div_le_iff₀ hden]
    linarith
  · rw [sub_le_iff_le_add, ← sub_le_iff_le_add', le_div_iff₀ hden]
    linarith

/-- What is less than half a unit away from a whole number is rounded to it. -/
theorem roundHalfUp_eq_of_abs_sub_lt {num den n : Nat} (hd : den ≠ 0)
    (h : |(num / den : Rat) - n| < 1 / 2) : roundHalfUp num den = n := by
  have hround := abs_le.1 (abs_roundHalfUp_sub_le num hd)
  have hnear := abs_lt.1 h
  have hless : (roundHalfUp num den : Rat) < n + 1 := by linarith
  have hmore : (n : Rat) < roundHalfUp num den + 1 := by linarith
  have hless' : roundHalfUp num den < n + 1 := by exact_mod_cast hless
  have hmore' : n < roundHalfUp num den + 1 := by exact_mod_cast hmore
  omega

/-! ## On the side of zero -/

theorem truncate_neg (q : Rat) : truncate (-q) = -truncate q := by
  simp [truncate, Int.neg_tdiv]

theorem truncate_eq_of_le {q : Rat} {n : Nat} (hle : n ≤ q) (hlt : q < n + 1) :
    truncate q = n := by
  have hnonneg : 0 ≤ q := le_trans (by positivity) hle
  have hfloor : ⌊q⌋ = n := Int.floor_eq_iff.2 ⟨by exact_mod_cast hle, by exact_mod_cast hlt⟩
  rw [truncate, Int.tdiv_eq_ediv_of_nonneg (Rat.num_nonneg.2 hnonneg), ← Rat.floor_def, ← hfloor]
  rfl

end ColumnIndex
