import ColumnIndex.Proofs.Number.Magnitude
import ColumnIndex.Proofs.Number.Rounding

/-!
# Nearest magnitudes

`Rounds q code` says that among all magnitudes the one of `code` is nearest to `q`, and even if
there are two. It determines the code, so everything about `nearestCode` is proved from it: that
greater numbers have greater codes, that a magnitude is its own nearest one, and how far away the
nearest one can be.

Main statements: `FloatFormat.Rounds.mono`, `FloatFormat.nearestCode_spec`,
`FloatFormat.Rounds.abs_sub_mul_le`.
-/
namespace ColumnIndex.FloatFormat

variable {F : FloatFormat}

/-- The place halfway between the magnitudes of a code and of the next one. -/
def midpoint (F : FloatFormat) (code : Nat) : Rat := F.magnitude code + 2 ^ F.exponent code / 2

theorem magnitude_lt_midpoint (code : Nat) : F.magnitude code < F.midpoint code := by
  have : (0 : Rat) < 2 ^ F.exponent code := by positivity
  unfold midpoint
  linarith

theorem midpoint_lt_magnitude_succ (code : Nat) : F.midpoint code < F.magnitude (code + 1) := by
  have : (0 : Rat) < 2 ^ F.exponent code := by positivity
  rw [magnitude_succ]
  unfold midpoint
  linarith

theorem midpoint_eq_magnitude_succ_sub (code : Nat) :
    F.midpoint code = F.magnitude (code + 1) - 2 ^ F.exponent code / 2 := by
  rw [magnitude_succ]
  unfold midpoint
  ring

theorem midpoint_strictMono : StrictMono F.midpoint := by
  apply strictMono_nat_of_lt_succ
  intro code
  exact (midpoint_lt_magnitude_succ code).trans (magnitude_lt_midpoint _)

/-- The magnitude of the code is nearest to a number, and of two the one with the even code. There
is no greatest code here. -/
structure Rounds (F : FloatFormat) (q : Rat) (code : Nat) : Prop where
  ge : ∀ c, c + 1 = code → F.midpoint c ≤ q
  le : q ≤ F.midpoint code
  even : (∃ c, c + 1 = code ∧ q = F.midpoint c) ∨ q = F.midpoint code → code % 2 = 0

namespace Rounds

variable {q q' : Rat} {code code' : Nat}

/-- Greater numbers have greater codes. -/
theorem mono (h : F.Rounds q code) (h' : F.Rounds q' code') (hq : q ≤ q') : code ≤ code' := by
  by_contra hlt
  obtain ⟨c, hc⟩ : ∃ c, c + 1 = code := ⟨code - 1, by omega⟩
  have hlow := h.ge c hc
  have hhigh := h'.le
  have hstep : F.midpoint code' ≤ F.midpoint c := midpoint_strictMono.monotone (by omega)
  -- Only the midpoint between the two codes is left for both numbers, and both codes are even.
  have hsame : c = code' := midpoint_strictMono.injective (by linarith)
  subst hsame
  have heven := h.even (.inl ⟨c, hc, by linarith⟩)
  have heven' := h'.even (.inr (by linarith))
  omega

theorem unique (h : F.Rounds q code) (h' : F.Rounds q code') : code = code' :=
  le_antisymm (h.mono h' le_rfl) (h'.mono h le_rfl)

/-- A magnitude is the nearest one to itself. -/
theorem magnitude (code : Nat) : F.Rounds (F.magnitude code) code where
  ge := by
    rintro c rfl
    exact (midpoint_lt_magnitude_succ c).le
  le := (magnitude_lt_midpoint code).le
  even := by
    rintro (⟨c, rfl, h⟩ | h)
    · exact absurd h (midpoint_lt_magnitude_succ c).ne'
    · exact absurd h (magnitude_lt_midpoint code).ne

/-- A midpoint belongs to the even one of its two codes. -/
theorem midpoint (code : Nat) : F.Rounds (F.midpoint code) (code + code % 2) := by
  rcases Nat.mod_two_eq_zero_or_one code with h | h
  · rw [h]
    refine ⟨?_, le_rfl, fun _ => h⟩
    rintro c rfl
    exact (midpoint_strictMono (Nat.lt_succ_self c)).le
  · rw [h]
    refine ⟨?_, (midpoint_strictMono (Nat.lt_succ_self code)).le, fun _ => by omega⟩
    intro c hc
    rw [Nat.succ_injective hc]

/-- What is nearest to a number that is at most a magnitude is at most that magnitude. -/
theorem le_of_le_magnitude (h : F.Rounds q code) {c : Nat} (hq : q ≤ F.magnitude c) : code ≤ c :=
  h.mono (magnitude c) hq

theorem ge_of_magnitude_le (h : F.Rounds q code) {c : Nat} (hq : F.magnitude c ≤ q) : c ≤ code :=
  (magnitude c).mono h hq

end Rounds

/-! ## The code that is computed -/

section Computed

variable {num den : Nat}

/-- The power of two that the last bit counts in the magnitude nearest to a quotient. -/
def lastExponent (F : FloatFormat) (num den : Nat) : Int :=
  max F.minExponent (floorLog2 num den - F.fractionBits)

/-- The significant bits of that magnitude. They may be one more than the format has. -/
def nearestBits (F : FloatFormat) (num den : Nat) : Nat :=
  roundHalfEven (num * 2 ^ (-F.lastExponent num den).toNat)
    (den * 2 ^ (F.lastExponent num den).toNat)

theorem nearestCode_of_ne_zero (hn : num ≠ 0) :
    F.nearestCode num den = min F.infinityCode
      ((F.lastExponent num den - F.minExponent).toNat * 2 ^ F.fractionBits
        + F.nearestBits num den) := by
  unfold nearestCode
  rw [if_neg hn]
  rfl

theorem isNearestEven_nearestBits (F : FloatFormat) (num : Nat) (hd : den ≠ 0) :
    IsNearestEven (num / den / 2 ^ F.lastExponent num den) (F.nearestBits num den) := by
  rw [← div_scaled]
  apply isNearestEven_roundHalfEven
  exact Nat.mul_ne_zero hd (pow_ne_zero _ two_ne_zero)

theorem div_lt_two_zpow (hn : num ≠ 0) (hd : den ≠ 0) :
    (num / den / 2 ^ F.lastExponent num den : Rat) < (2 ^ (F.fractionBits + 1) : Nat) := by
  have h : floorLog2 num den < F.fractionBits + 1 + F.lastExponent num den := by
    unfold lastExponent
    omega
  rw [floorLog2_lt_iff hn hd, zpow_add₀ two_ne_zero] at h
  rw [div_lt_iff₀ (by positivity)]
  exact_mod_cast h

/-- Above the least exponent the bits are full. -/
theorem le_div_two_zpow (hn : num ≠ 0) (hd : den ≠ 0)
    (h : F.lastExponent num den ≠ F.minExponent) :
    ((2 ^ F.fractionBits : Nat) : Rat) ≤ num / den / 2 ^ F.lastExponent num den := by
  have hlast : ¬ floorLog2 num den < F.fractionBits + F.lastExponent num den := by
    unfold lastExponent at h ⊢
    omega
  rw [floorLog2_lt_iff hn hd, not_lt, zpow_add₀ two_ne_zero] at hlast
  rw [le_div_iff₀ (by positivity)]
  exact_mod_cast hlast

/-- The bits next to a magnitude with an exponent make a code that rounds to it. -/
theorem rounds_of_bits (hf : F.fractionBits ≠ 0) {d bits : Nat} {q : Rat}
    (hbits : IsNearestEven (q / 2 ^ (F.minExponent + d)) bits)
    (hlow : d ≠ 0 → ((2 ^ F.fractionBits : Nat) : Rat) ≤ q / 2 ^ (F.minExponent + d))
    (hhigh : q / 2 ^ (F.minExponent + d) < (2 ^ (F.fractionBits + 1) : Nat)) :
    F.Rounds q (d * 2 ^ F.fractionBits + bits) := by
  have hpow : (0 : Rat) < 2 ^ (F.minExponent + d : Int) := by positivity
  have hfull : d = 0 ∨ 2 ^ F.fractionBits ≤ bits := by
    by_cases hd : d = 0
    · exact .inl hd
    · exact .inr ((IsNearestEven.natCast _).mono hbits (hlow hd))
  have hmost : bits ≤ 2 ^ (F.fractionBits + 1) := hbits.mono (IsNearestEven.natCast _) hhigh.le
  have hmagnitude := F.magnitude_shifted hfull hmost
  have hparity : (d * 2 ^ F.fractionBits + bits) % 2 = bits % 2 := by
    obtain ⟨f, hf⟩ := Nat.exists_eq_succ_of_ne_zero hf
    rw [hf, Nat.pow_succ, ← Nat.mul_assoc]
    omega
  have hle : q ≤ (bits + 1 / 2) * 2 ^ (F.minExponent + d : Int) := by
    rw [← div_le_iff₀ hpow]
    exact hbits.ge
  have hge : (bits - 1 / 2) * 2 ^ (F.minExponent + d : Int) ≤ q := by
    rw [← le_div_iff₀ hpow]
    exact hbits.le
  have habove : (bits + 1 / 2) * 2 ^ (F.minExponent + d : Int)
      ≤ F.midpoint (d * 2 ^ F.fractionBits + bits) := by
    have hstep : (2 : Rat) ^ (F.minExponent + d : Int)
        ≤ 2 ^ F.exponent (d * 2 ^ F.fractionBits + bits) := by
      have h := F.le_shift_of_bits hfull
      apply zpow_le_zpow_right₀ one_le_two
      rw [exponent_eq]
      omega
    rw [midpoint, hmagnitude]
    linarith
  have hbelow : ∀ c, c + 1 = d * 2 ^ F.fractionBits + bits → F.midpoint c < q ∨
      F.midpoint c = (bits - 1 / 2) * 2 ^ (F.minExponent + d : Int) := by
    intro c hc
    rcases F.shift_eq_or_of_succ hc hfull hmost with hshift | ⟨hd, hbits⟩
    · right
      rw [midpoint_eq_magnitude_succ_sub, hc, hmagnitude, exponent_eq, hshift]
      ring
    · left
      calc F.midpoint c < F.magnitude (c + 1) := midpoint_lt_magnitude_succ c
        _ = bits * 2 ^ (F.minExponent + d : Int) := by rw [hc, hmagnitude]
        _ ≤ (2 ^ F.fractionBits : Nat) * 2 ^ (F.minExponent + d : Int) := by gcongr
        _ ≤ q := (le_div_iff₀ hpow).1 (hlow hd)
  refine ⟨?_, hle.trans habove, ?_⟩
  · intro c hc
    rcases hbelow c hc with h | h
    · exact h.le
    · exact h ▸ hge
  · rw [hparity]
    rintro (⟨c, hc, hq⟩ | hq)
    · rcases hbelow c hc with h | h
      · exact absurd hq h.ne'
      · apply hbits.even
        left
        rw [hq, h, mul_div_cancel_right₀ _ hpow.ne']
    · apply hbits.even
      right
      rw [div_eq_iff hpow.ne']
      exact le_antisymm hle (hq ▸ habove)

/-- The computed code is that of the nearest magnitude, or infinity if that is beyond the finite
ones. -/
theorem nearestCode_spec (hf : F.fractionBits ≠ 0) (num : Nat) (hd : den ≠ 0) :
    ∃ code, F.Rounds (num / den) code ∧ F.nearestCode num den = min F.infinityCode code := by
  by_cases hn : num = 0
  · subst hn
    refine ⟨0, ?_, by simp [nearestCode]⟩
    rw [Nat.cast_zero, zero_div, ← F.magnitude_zero]
    exact Rounds.magnitude 0
  · obtain ⟨d, hdist⟩ : ∃ d : Nat, F.lastExponent num den = F.minExponent + d := by
      refine ⟨(F.lastExponent num den - F.minExponent).toNat, ?_⟩
      unfold lastExponent
      omega
    have hbits := F.isNearestEven_nearestBits num hd
    have hlow := F.le_div_two_zpow hn hd
    have hhigh := F.div_lt_two_zpow hn hd
    rw [hdist] at hbits hlow hhigh
    refine ⟨_, rounds_of_bits hf hbits (fun hd => hlow (by omega)) hhigh, ?_⟩
    rw [nearestCode_of_ne_zero hn, hdist]
    congr 3
    omega

/-- The nearest code, where it is not beyond the finite ones. -/
theorem nearestCode_eq_of_rounds (hf : F.fractionBits ≠ 0) (hd : den ≠ 0) {code : Nat}
    (h : F.Rounds (num / den) code) (hc : code ≤ F.infinityCode) :
    F.nearestCode num den = code := by
  obtain ⟨code', h', hnearest⟩ := nearestCode_spec hf num hd
  rw [hnearest, h'.unique h]
  exact min_eq_right hc

/-- It does not matter by which quotient a number is given. -/
theorem nearestCode_congr (hf : F.fractionBits ≠ 0) {num' den' : Nat} (hd : den ≠ 0)
    (hd' : den' ≠ 0) (h : (num / den : Rat) = num' / den') :
    F.nearestCode num den = F.nearestCode num' den' := by
  obtain ⟨code, hcode, hnearest⟩ := nearestCode_spec hf num hd
  obtain ⟨code', hcode', hnearest'⟩ := nearestCode_spec hf num' hd'
  rw [← h] at hcode'
  rw [hnearest, hnearest', hcode.unique hcode']

/-- There is a nearest code for each number that is not negative. -/
theorem exists_rounds (hf : F.fractionBits ≠ 0) {q : Rat} (hq : 0 ≤ q) :
    ∃ code, F.Rounds q code := by
  obtain ⟨code, hcode, -⟩ := nearestCode_spec hf q.num.natAbs q.den_nz
  rw [← abs_eq_natAbs_div, abs_of_nonneg hq] at hcode
  exact ⟨code, hcode⟩

end Computed

/-! ## How far away the nearest magnitude is -/

/-- A step is short against any number from the step on that is not among the smallest. -/
theorem two_zpow_exponent_mul_le {q : Rat} {c : Nat} (hq : 2 ^ (F.minExponent + F.fractionBits) ≤ q)
    (hc : F.magnitude c ≤ q) : 2 ^ F.exponent c * 2 ^ F.fractionBits ≤ q := by
  rcases F.shift_eq_zero_or c with hshift | hfull
  · rw [exponent_eq, hshift, ← zpow_natCast, ← zpow_add₀ two_ne_zero]
    simpa using hq
  · have hfull' : ((2 : Rat) ^ F.fractionBits) ≤ F.significand c := by exact_mod_cast hfull
    calc (2 : Rat) ^ F.exponent c * 2 ^ F.fractionBits
        ≤ 2 ^ F.exponent c * F.significand c := by gcongr
      _ = F.magnitude c := mul_comm _ _
      _ ≤ q := hc

/-- The relative error of rounding is at most half a unit of the last significant bit. -/
theorem Rounds.abs_sub_mul_le {q : Rat} {code : Nat} (h : F.Rounds q code)
    (hq : 2 ^ (F.minExponent + F.fractionBits) ≤ q) :
    |F.magnitude code - q| * 2 ^ (F.fractionBits + 1) ≤ q := by
  have hpow : (0 : Rat) < 2 ^ F.fractionBits := by positivity
  rw [pow_succ]
  rcases le_total (F.magnitude code) q with hle | hge
  · have hstep := two_zpow_exponent_mul_le hq hle
    have herror : q - F.magnitude code ≤ 2 ^ F.exponent code / 2 := by
      have := h.le
      unfold FloatFormat.midpoint at this
      linarith
    rw [abs_sub_comm, abs_of_nonneg (sub_nonneg.2 hle)]
    calc (q - F.magnitude code) * (2 ^ F.fractionBits * 2)
        ≤ 2 ^ F.exponent code / 2 * (2 ^ F.fractionBits * 2) := by gcongr
      _ = 2 ^ F.exponent code * 2 ^ F.fractionBits := by ring
      _ ≤ q := hstep
  · obtain ⟨c, rfl⟩ : ∃ c, code = c + 1 := by
      apply Nat.exists_eq_add_one.2
      apply Nat.pos_of_ne_zero
      rintro rfl
      have hpos : (0 : Rat) < 2 ^ (F.minExponent + F.fractionBits) := by positivity
      rw [magnitude_zero] at hge
      linarith
    have hmid := h.ge c rfl
    have hstep := two_zpow_exponent_mul_le hq ((magnitude_lt_midpoint c).le.trans hmid)
    have herror : F.magnitude (c + 1) - q ≤ 2 ^ F.exponent c / 2 := by
      rw [midpoint_eq_magnitude_succ_sub] at hmid
      linarith
    rw [abs_of_nonneg (sub_nonneg.2 hge)]
    calc (F.magnitude (c + 1) - q) * (2 ^ F.fractionBits * 2)
        ≤ 2 ^ F.exponent c / 2 * (2 ^ F.fractionBits * 2) := by gcongr
      _ = 2 ^ F.exponent c * 2 ^ F.fractionBits := by ring
      _ ≤ q := hstep

/-! ## Numbers with few significant bits -/

/-- A number of no more bits than the format has is a magnitude. -/
theorem exists_magnitude_eq {n : Nat} (hn : n ≤ 2 ^ (F.fractionBits + 1)) (d : Nat) :
    ∃ code, F.magnitude code = n * 2 ^ (F.minExponent + d) := by
  induction d generalizing n with
  | zero => exact ⟨_, F.magnitude_shifted (.inl rfl) hn⟩
  | succ d ih =>
    by_cases hfull : 2 ^ F.fractionBits ≤ n
    · exact ⟨_, F.magnitude_shifted (.inr hfull) hn⟩
    · obtain ⟨code, hcode⟩ := ih (n := 2 * n) (by rw [Nat.pow_succ]; omega)
      refine ⟨code, ?_⟩
      rw [hcode]
      push_cast
      rw [← add_assoc, zpow_add_one₀ two_ne_zero]
      ring

/-- Numbers up to half the limit of the format are rounded to finite magnitudes. -/
theorem Rounds.lt_infinityCode (hf : F.fractionBits ≠ 0) (he : F.exponentBits ≠ 0) {q : Rat}
    {code : Nat} (h : F.Rounds q code) (hq : q ≤ 2 ^ (2 ^ (F.exponentBits - 1) - 1)) :
    code < F.infinityCode := by
  have hpos := Nat.two_pow_pos (F.exponentBits - 1)
  obtain ⟨d, hd⟩ : ∃ d : Nat, F.minExponent + d = (2 ^ (F.exponentBits - 1) - 1 : Nat) := by
    refine ⟨2 * 2 ^ (F.exponentBits - 1) + F.fractionBits - 3, ?_⟩
    unfold minExponent
    push_cast [hpos, show 3 ≤ 2 * 2 ^ (F.exponentBits - 1) + F.fractionBits by omega]
    ring
  obtain ⟨c, hc⟩ := exists_magnitude_eq (F := F) (n := 1) (Nat.two_pow_pos _) d
  rw [hd, zpow_natCast, Nat.cast_one, one_mul] at hc
  have hcode := F.magnitude_strictMono.monotone (h.le_of_le_magnitude (hc ▸ hq))
  rw [lt_infinityCode_iff F he]
  calc F.magnitude code ≤ F.magnitude c := hcode
    _ = 2 ^ (2 ^ (F.exponentBits - 1) - 1) := hc
    _ < 2 ^ 2 ^ (F.exponentBits - 1) := pow_lt_pow_right₀ one_lt_two (by omega)

end ColumnIndex.FloatFormat
