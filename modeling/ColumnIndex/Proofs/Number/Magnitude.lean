import ColumnIndex.Number.Binary
import Mathlib.Algebra.Order.Field.Power
import Mathlib.Algebra.Order.Field.Rat
import Mathlib.Order.Monotone.Basic
import Mathlib.Tactic.Linarith
import Mathlib.Tactic.Ring

/-!
# Magnitudes

Codes stand for magnitudes in their own order. A code is made of a shift and of significant bits,
and the carry from full bits into the shift does not disturb the magnitude: this is what makes
rounding a matter of counting.

Main statements: `FloatFormat.magnitude_shifted`, `FloatFormat.magnitude_strictMono`.
-/
namespace ColumnIndex.FloatFormat

variable (F : FloatFormat)

/-- How far the last significant bit of a code is above the least one. -/
def shift (code : Nat) : Nat := code / 2 ^ F.fractionBits - 1

theorem exponent_eq (code : Nat) : F.exponent code = F.minExponent + F.shift code := rfl

/-- A code is its shift and its significant bits. -/
theorem shift_mul_add_significand (code : Nat) :
    F.shift code * 2 ^ F.fractionBits + F.significand code = code := by
  have hpos := Nat.two_pow_pos F.fractionBits
  unfold shift significand
  split
  · rename_i h
    rw [Nat.div_eq_of_lt h]
    omega
  · rename_i h
    have hone : 1 ≤ code / 2 ^ F.fractionBits := (Nat.one_le_div_iff hpos).2 (by omega)
    obtain ⟨k, hk⟩ : ∃ k, code / 2 ^ F.fractionBits = k + 1 := ⟨_, (Nat.sub_add_cancel hone).symm⟩
    have hparts := Nat.div_add_mod' code (2 ^ F.fractionBits)
    rw [hk, Nat.succ_mul] at hparts
    rw [hk, Nat.add_sub_cancel]
    omega

theorem significand_lt (code : Nat) : F.significand code < 2 ^ (F.fractionBits + 1) := by
  have hpos := Nat.two_pow_pos F.fractionBits
  have hmod := Nat.mod_lt code hpos
  rw [Nat.pow_succ]
  unfold significand
  split
  · omega
  · omega

/-- The significant bits above the least shift are full. -/
theorem shift_eq_zero_or (code : Nat) :
    F.shift code = 0 ∨ 2 ^ F.fractionBits ≤ F.significand code := by
  unfold shift significand
  split
  · rename_i h
    rw [Nat.div_eq_of_lt h]
    exact .inl rfl
  · exact .inr (Nat.le_add_right _ _)

/-- A code of full bits, or of any bits that are not shifted. -/
theorem shift_of_bits {d bits : Nat} (hd : d = 0 ∨ 2 ^ F.fractionBits ≤ bits)
    (hbits : bits < 2 ^ (F.fractionBits + 1)) :
    F.shift (d * 2 ^ F.fractionBits + bits) = d ∧
      F.significand (d * 2 ^ F.fractionBits + bits) = bits := by
  have hpos := Nat.two_pow_pos F.fractionBits
  have hshift : F.shift (d * 2 ^ F.fractionBits + bits) = d := by
    unfold shift
    rw [Nat.add_comm, Nat.add_mul_div_right _ _ hpos]
    rw [Nat.pow_succ] at hbits
    by_cases hfull : 2 ^ F.fractionBits ≤ bits
    · have h := Nat.div_eq_of_lt_le (m := bits) (n := 2 ^ F.fractionBits) (k := 1)
        (by omega) (by omega)
      omega
    · have h := Nat.div_eq_of_lt (Nat.lt_of_not_le hfull)
      omega
  have hparts := F.shift_mul_add_significand (d * 2 ^ F.fractionBits + bits)
  rw [hshift] at hparts
  exact ⟨hshift, by omega⟩

theorem le_shift_of_bits {d bits : Nat} (hd : d = 0 ∨ 2 ^ F.fractionBits ≤ bits) :
    d ≤ F.shift (d * 2 ^ F.fractionBits + bits) := by
  rcases hd with rfl | hfull
  · exact Nat.zero_le _
  · have h : (d + 1) * 2 ^ F.fractionBits ≤ d * 2 ^ F.fractionBits + bits := by
      rw [Nat.succ_mul]
      omega
    rw [← Nat.le_div_iff_mul_le (Nat.two_pow_pos _)] at h
    unfold shift
    omega

/-- One step down from bits, the shift is the same, or it was only just reached. -/
theorem shift_eq_or_of_succ {c d bits : Nat} (hc : c + 1 = d * 2 ^ F.fractionBits + bits)
    (hd : d = 0 ∨ 2 ^ F.fractionBits ≤ bits) (hbits : bits ≤ 2 ^ (F.fractionBits + 1)) :
    F.shift c = d ∨ d ≠ 0 ∧ bits ≤ 2 ^ F.fractionBits := by
  by_cases h : d ≠ 0 ∧ bits ≤ 2 ^ F.fractionBits
  · exact .inr h
  · obtain ⟨rest, rfl⟩ : ∃ rest, bits = rest + 1 := by
      refine ⟨bits - 1, ?_⟩
      have := Nat.two_pow_pos F.fractionBits
      rcases hd with rfl | hd
      · omega
      · omega
    obtain rfl : c = d * 2 ^ F.fractionBits + rest := by omega
    exact .inl (F.shift_of_bits (by omega) hbits).1

/-- Bits count the same magnitude whether or not they carry into the shift. -/
theorem magnitude_shifted {d bits : Nat} (hd : d = 0 ∨ 2 ^ F.fractionBits ≤ bits)
    (hbits : bits ≤ 2 ^ (F.fractionBits + 1)) :
    F.magnitude (d * 2 ^ F.fractionBits + bits) = bits * 2 ^ (F.minExponent + d) := by
  rcases Nat.lt_or_eq_of_le hbits with hlt | rfl
  · obtain ⟨hshift, hsignificand⟩ := F.shift_of_bits hd hlt
    rw [magnitude, exponent_eq, hshift, hsignificand]
  · have hcarry : d * 2 ^ F.fractionBits + 2 ^ (F.fractionBits + 1)
        = (d + 1) * 2 ^ F.fractionBits + 2 ^ F.fractionBits := by
      rw [Nat.pow_succ]
      ring
    have hlt : 2 ^ F.fractionBits < 2 ^ (F.fractionBits + 1) :=
      Nat.pow_lt_pow_right one_lt_two (Nat.lt_succ_self _)
    obtain ⟨hshift, hsignificand⟩ := F.shift_of_bits (d := d + 1) (.inr le_rfl) hlt
    rw [hcarry, magnitude, exponent_eq, hshift, hsignificand]
    push_cast
    rw [← add_assoc, zpow_add_one₀ two_ne_zero]
    ring

@[simp] theorem magnitude_zero : F.magnitude 0 = 0 := by
  simp [magnitude, significand]

theorem magnitude_nonneg (code : Nat) : 0 ≤ F.magnitude code := by
  unfold magnitude
  positivity

/-- The next code stands for the magnitude that is one step greater. -/
theorem magnitude_succ (code : Nat) :
    F.magnitude (code + 1) = F.magnitude code + 2 ^ F.exponent code := by
  have hcode := F.shift_mul_add_significand code
  have hlt := F.significand_lt code
  have hshift := F.shift_eq_zero_or code
  have hnext : F.magnitude (F.shift code * 2 ^ F.fractionBits + (F.significand code + 1))
      = (F.significand code + 1 : Nat) * 2 ^ F.exponent code :=
    F.magnitude_shifted (by omega) hlt
  rw [← Nat.add_assoc, hcode] at hnext
  rw [hnext, magnitude]
  push_cast
  ring

/-- Greater codes stand for greater magnitudes. -/
theorem magnitude_strictMono : StrictMono F.magnitude := by
  apply strictMono_nat_of_lt_succ
  intro code
  rw [magnitude_succ]
  have : (0 : Rat) < 2 ^ F.exponent code := by positivity
  linarith

/-- Infinity has the code of the power of two that is beyond the finite magnitudes. -/
theorem magnitude_infinityCode (he : F.exponentBits ≠ 0) :
    F.magnitude F.infinityCode = 2 ^ 2 ^ (F.exponentBits - 1) := by
  obtain ⟨e, he⟩ := Nat.exists_eq_succ_of_ne_zero he
  have hpos := Nat.two_pow_pos e
  have hcode : F.infinityCode
      = (2 ^ F.exponentBits - 2) * 2 ^ F.fractionBits + 2 ^ F.fractionBits := by
    rw [infinityCode, ← Nat.succ_mul]
    congr 1
    rw [he, Nat.pow_succ]
    omega
  have hexponent : (F.fractionBits : Int) + (F.minExponent + (2 ^ F.exponentBits - 2 : Nat))
      = (2 ^ (F.exponentBits - 1) : Nat) := by
    rw [minExponent, he, Nat.succ_sub_one, Nat.pow_succ]
    push_cast [show 2 ≤ 2 ^ e * 2 by omega]
    ring
  have hlt : 2 ^ F.fractionBits ≤ 2 ^ (F.fractionBits + 1) :=
    Nat.pow_le_pow_right two_pos (Nat.le_succ _)
  rw [hcode, F.magnitude_shifted (.inr le_rfl) hlt]
  push_cast
  rw [← zpow_natCast, ← zpow_add₀ two_ne_zero, hexponent, zpow_natCast]

theorem lt_infinityCode_iff (he : F.exponentBits ≠ 0) {code : Nat} :
    code < F.infinityCode ↔ F.magnitude code < 2 ^ 2 ^ (F.exponentBits - 1) := by
  rw [← F.magnitude_infinityCode he, F.magnitude_strictMono.lt_iff_lt]

/-- The steps do not get shorter. -/
theorem exponent_mono {code code' : Nat} (h : code ≤ code') :
    F.exponent code ≤ F.exponent code' := by
  have := Nat.div_le_div_right (c := 2 ^ F.fractionBits) h
  unfold exponent
  omega

end ColumnIndex.FloatFormat
