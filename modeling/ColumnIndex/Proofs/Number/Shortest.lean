import ColumnIndex.Number.Binary.Shortest
import ColumnIndex.Proofs.Number.Reading

/-!
# Shortest decimal numbers

The decimal number with the fewest digits lies between the midpoints around a magnitude, so it is
rounded to that magnitude again. A whole number with few bits is its own shortest form.

Main statements: `FloatFormat.rounds_shortest`, `FloatFormat.toRat_shortest_of_whole`.
-/
namespace ColumnIndex

namespace Scientific

/-- Zeros at the end are not missed. -/
theorem toRat_trimZeros (n : Nat) (s : Scientific) : (s.trimZeros n).toRat = s.toRat := by
  induction n generalizing s with
  | zero => rfl
  | succ n ih =>
    unfold trimZeros
    split
    · rename_i h
      have hten : s.coefficient = s.coefficient / 10 * 10 := by omega
      rw [ih, toRat, toRat]
      conv_rhs => rw [hten]
      push_cast
      rw [zpow_add_one₀ ten_ne_zero]
      ring
    · rfl

end Scientific

namespace FloatFormat

variable {F : FloatFormat}

/-- The decimal digits of a magnitude are all there. -/
theorem toRat_exactDigits (code : Nat) : (F.exactDigits code).toRat = F.magnitude code := by
  unfold exactDigits
  dsimp only
  split
  · rename_i h
    obtain ⟨n, hn⟩ : ∃ n : Nat, F.exponent code = -n := ⟨(-F.exponent code).toNat, by omega⟩
    rw [Scientific.toRat, magnitude, hn, neg_neg, Int.toNat_natCast]
    push_cast
    rw [zpow_neg, zpow_neg, zpow_natCast, zpow_natCast,
      show (10 : Rat) = 5 * 2 by norm_num, mul_pow]
    field_simp
  · rename_i h
    obtain ⟨n, hn⟩ : ∃ n : Nat, F.exponent code = n := ⟨(F.exponent code).toNat, by omega⟩
    rw [Scientific.toRat, magnitude, hn, Int.toNat_natCast, zpow_natCast]
    push_cast
    rw [mul_one]

/-- The midpoint above a magnitude, in quarters of a step. -/
theorem midpoint_eq_quarters (code : Nat) :
    F.midpoint code = ((4 * F.significand code + 2 : Nat) : Rat) * 2 ^ (F.exponent code - 2) := by
  rw [midpoint, magnitude, zpow_sub₀ two_ne_zero]
  push_cast
  ring

/-- One step down from a power of two the steps are half as long. -/
theorem exponent_of_succ {c code : Nat} (hc : c + 1 = code) :
    F.exponent c
      = if F.significand code = 2 ^ F.fractionBits ∧ 2 * 2 ^ F.fractionBits ≤ code then
          F.exponent code - 1 else F.exponent code := by
  have hparts := F.shift_mul_add_significand code
  have hpos := Nat.two_pow_pos F.fractionBits
  split
  · rename_i h
    obtain ⟨hfull, hleast⟩ := h
    rw [hfull] at hparts
    obtain ⟨d, hd⟩ : ∃ d, F.shift code = d + 1 := by
      apply Nat.exists_eq_add_one.2
      apply Nat.pos_of_ne_zero
      intro hzero
      rw [hzero] at hparts
      omega
    have hbits : 2 ^ F.fractionBits + (2 ^ F.fractionBits - 1) < 2 ^ (F.fractionBits + 1) := by
      rw [Nat.pow_succ]
      omega
    have hpred : c = d * 2 ^ F.fractionBits + (2 ^ F.fractionBits + (2 ^ F.fractionBits - 1)) := by
      rw [hd, Nat.succ_mul] at hparts
      omega
    have hshift : F.shift c = d := by
      rw [hpred]
      exact (F.shift_of_bits (.inr (by omega)) hbits).1
    rw [exponent_eq, exponent_eq, hshift, hd]
    omega
  · rename_i h
    have hshift := F.shift_eq_or_of_succ (hc.trans (F.shift_mul_add_significand code).symm)
      (F.shift_eq_zero_or code) (F.significand_lt code).le
    rcases hshift with hshift | ⟨hd, hbits⟩
    · rw [exponent_eq, exponent_eq, hshift]
    · exfalso
      apply h
      have hfull := (F.shift_eq_zero_or code).resolve_left hd
      have hone := Nat.le_mul_of_pos_left (2 ^ F.fractionBits) (Nat.pos_of_ne_zero hd)
      omega

/-- The quarters of a step up to the midpoint below a magnitude. -/
def lowQuarters (F : FloatFormat) (code : Nat) : Nat :=
  if F.significand code = 2 ^ F.fractionBits ∧ 2 * 2 ^ F.fractionBits ≤ code then
    4 * F.significand code - 1
  else 4 * F.significand code - 2

/-- The midpoint below a magnitude, in quarters of a step. -/
theorem midpoint_pred_eq_quarters {c code : Nat} (hc : c + 1 = code) :
    F.midpoint c = F.lowQuarters code * 2 ^ (F.exponent code - 2) := by
  have hpositive : 1 ≤ F.significand code := by
    have hparts := F.shift_mul_add_significand code
    have hpos := Nat.two_pow_pos F.fractionBits
    rcases F.shift_eq_zero_or code with h | h
    · rw [h] at hparts
      omega
    · omega
  rw [midpoint_eq_magnitude_succ_sub, hc, exponent_of_succ hc, magnitude, zpow_sub₀ two_ne_zero]
  unfold lowQuarters
  split
  · rw [zpow_sub₀ two_ne_zero, Nat.cast_sub (by omega)]
    push_cast
    ring
  · rw [Nat.cast_sub (by omega)]
    push_cast
    ring

/-! ## Points of a decimal grid -/

section Grid

variable {code : Nat} {grid : Int}

/-- A quarter of a step, and a step of the grid, in a unit in which both are whole. -/
def gridScale (F : FloatFormat) (code : Nat) (grid : Int) : Nat :=
  2 ^ (F.exponent code - 2).toNat * 10 ^ (-grid).toNat

/-- A step of the grid in the unit of `gridScale`. -/
def gridUnit (F : FloatFormat) (code : Nat) (grid : Int) : Nat :=
  2 ^ (-(F.exponent code - 2)).toNat * 10 ^ grid.toNat

/-- Whether a point of the grid lies between the midpoints around a magnitude, or on one of them
if the magnitude has an even code. -/
def inRange (F : FloatFormat) (code : Nat) (grid : Int) (c : Nat) : Bool :=
  if F.significand code % 2 = 0 then
    F.lowQuarters code * F.gridScale code grid ≤ c * F.gridUnit code grid
      && c * F.gridUnit code grid ≤ (4 * F.significand code + 2) * F.gridScale code grid
  else
    F.lowQuarters code * F.gridScale code grid < c * F.gridUnit code grid
      && c * F.gridUnit code grid < (4 * F.significand code + 2) * F.gridScale code grid

/-- The last point of the grid up to a magnitude. -/
def gridLow (F : FloatFormat) (code : Nat) (grid : Int) : Nat :=
  4 * F.significand code * F.gridScale code grid / F.gridUnit code grid

/-- Whether the point up to a magnitude is chosen before the next one. -/
def isNearLow (F : FloatFormat) (tie : TieRule) (code : Nat) (grid : Int) : Bool :=
  let toLow := 4 * F.significand code * F.gridScale code grid
    - F.gridLow code grid * F.gridUnit code grid
  let toHigh := (F.gridLow code grid + 1) * F.gridUnit code grid
    - 4 * F.significand code * F.gridScale code grid
  toLow < toHigh || toLow == toHigh && match tie with
    | .up => false
    | .even => F.gridLow code grid % 2 == 0

theorem gridPoint?_eq (tie : TieRule) :
    F.gridPoint? tie code grid
      = if F.inRange code grid (F.gridLow code grid)
            && (F.isNearLow tie code grid || !F.inRange code grid (F.gridLow code grid + 1)) then
          some ⟨F.gridLow code grid, grid⟩
        else if F.inRange code grid (F.gridLow code grid + 1) then
          some ⟨F.gridLow code grid + 1, grid⟩
        else none := rfl

/-- How much the numbers are blown up to be whole. -/
def gridFactor (F : FloatFormat) (code : Nat) (grid : Int) : Rat :=
  2 ^ (-(F.exponent code - 2)).toNat * 10 ^ (-grid).toNat

theorem gridFactor_pos (F : FloatFormat) (code : Nat) (grid : Int) :
    0 < F.gridFactor code grid := by
  unfold gridFactor
  positivity

theorem cast_gridScale :
    (F.gridScale code grid : Rat) = 2 ^ (F.exponent code - 2) * F.gridFactor code grid := by
  rw [gridScale, gridFactor]
  push_cast
  rw [pow_toNat two_ne_zero (F.exponent code - 2)]
  ring

theorem cast_gridUnit : (F.gridUnit code grid : Rat) = 10 ^ grid * F.gridFactor code grid := by
  rw [gridUnit, gridFactor]
  push_cast
  rw [pow_toNat ten_ne_zero grid]
  ring

theorem mul_gridScale_le_iff (a c : Nat) :
    a * F.gridScale code grid ≤ c * F.gridUnit code grid ↔
      (a * 2 ^ (F.exponent code - 2) : Rat) ≤ c * 10 ^ grid := by
  rw [← mul_le_mul_iff_of_pos_right (F.gridFactor_pos code grid),
    mul_assoc, mul_assoc, ← cast_gridScale, ← cast_gridUnit]
  exact_mod_cast Iff.rfl

theorem mul_gridUnit_le_iff (a c : Nat) :
    c * F.gridUnit code grid ≤ a * F.gridScale code grid ↔
      (c * 10 ^ grid : Rat) ≤ a * 2 ^ (F.exponent code - 2) := by
  rw [← mul_le_mul_iff_of_pos_right (F.gridFactor_pos code grid),
    mul_assoc, mul_assoc, ← cast_gridScale, ← cast_gridUnit]
  exact_mod_cast Iff.rfl

/-- The last bit of a code is the last significant one. -/
theorem code_mod_two (hf : F.fractionBits ≠ 0) (code : Nat) :
    code % 2 = F.significand code % 2 := by
  have hparts := F.shift_mul_add_significand code
  obtain ⟨f, hf⟩ := Nat.exists_eq_succ_of_ne_zero hf
  rw [hf, Nat.pow_succ, ← Nat.mul_assoc] at hparts
  omega

/-- A point in range is rounded to the magnitude. -/
theorem rounds_of_inRange (hf : F.fractionBits ≠ 0) {c : Nat} (h : F.inRange code grid c) :
    F.Rounds (c * 10 ^ grid) code := by
  have hparity := F.code_mod_two hf code
  have habove := F.midpoint_eq_quarters code
  unfold inRange at h
  split at h
  · rename_i heven
    rw [Bool.and_eq_true, decide_eq_true_eq, decide_eq_true_eq, mul_gridScale_le_iff,
      mul_gridUnit_le_iff, ← habove] at h
    refine ⟨?_, h.2, fun _ => hparity.trans heven⟩
    intro c' hc'
    rw [midpoint_pred_eq_quarters hc']
    exact h.1
  · rw [Bool.and_eq_true, decide_eq_true_eq, decide_eq_true_eq, ← not_le, ← not_le,
      mul_gridScale_le_iff, mul_gridUnit_le_iff, ← habove, not_le, not_le] at h
    refine ⟨?_, h.2.le, ?_⟩
    · intro c' hc'
      rw [midpoint_pred_eq_quarters hc']
      exact h.1.le
    · rintro (⟨c', hc', heq⟩ | heq)
      · rw [midpoint_pred_eq_quarters hc'] at heq
        exact absurd heq h.1.ne'
      · exact absurd heq h.2.ne

/-- A point that is rounded to a magnitude is in range. -/
theorem inRange_of_rounds (hf : F.fractionBits ≠ 0) (hcode : code ≠ 0) {c : Nat}
    (h : F.Rounds (c * 10 ^ grid) code) : F.inRange code grid c := by
  obtain ⟨before, hbefore⟩ : ∃ before, before + 1 = code := ⟨code - 1, by omega⟩
  have hparity := F.code_mod_two hf code
  have hlow := h.ge before hbefore
  unfold inRange
  split
  · rw [Bool.and_eq_true, decide_eq_true_eq, decide_eq_true_eq, mul_gridScale_le_iff,
      mul_gridUnit_le_iff, ← midpoint_eq_quarters, ← midpoint_pred_eq_quarters hbefore]
    exact ⟨hlow, h.le⟩
  · rename_i hodd
    have hne : F.midpoint before ≠ c * 10 ^ grid := fun heq =>
      hodd (hparity ▸ h.even (.inl ⟨before, hbefore, heq.symm⟩))
    have hne' : c * 10 ^ grid ≠ F.midpoint code := fun heq => hodd (hparity ▸ h.even (.inr heq))
    rw [Bool.and_eq_true, decide_eq_true_eq, decide_eq_true_eq, ← not_le, ← not_le,
      mul_gridScale_le_iff, mul_gridUnit_le_iff, ← midpoint_eq_quarters,
      ← midpoint_pred_eq_quarters hbefore, not_le, not_le]
    exact ⟨lt_of_le_of_ne hlow hne, lt_of_le_of_ne h.le hne'⟩

/-- A point of the grid that is chosen is rounded to the magnitude. -/
theorem rounds_of_gridPoint? (hf : F.fractionBits ≠ 0) {tie : TieRule} {s : Scientific}
    (h : F.gridPoint? tie code grid = some s) : s.exponent = grid ∧ F.Rounds s.toRat code := by
  rw [gridPoint?_eq] at h
  split at h
  · rename_i hlow
    rw [Bool.and_eq_true] at hlow
    obtain rfl := Option.some.inj h
    exact ⟨rfl, rounds_of_inRange hf hlow.1⟩
  · split at h
    · rename_i hhigh
      obtain rfl := Option.some.inj h
      exact ⟨rfl, rounds_of_inRange hf hhigh⟩
    · cases h

/-- A magnitude on the grid is the point that is chosen. -/
theorem gridPoint?_of_magnitude (tie : TieRule) {c : Nat} (h : F.magnitude code = c * 10 ^ grid) :
    F.gridPoint? tie code grid = some ⟨c, grid⟩ := by
  have hscale : 0 < F.gridScale code grid := Nat.mul_pos (by positivity) (by positivity)
  have hunit : 0 < F.gridUnit code grid := Nat.mul_pos (by positivity) (by positivity)
  have hexact : 4 * F.significand code * F.gridScale code grid = c * F.gridUnit code grid := by
    have hquarters : (4 * F.significand code * 2 ^ (F.exponent code - 2) : Rat)
        = F.magnitude code := by
      rw [magnitude, zpow_sub₀ two_ne_zero]
      ring
    have hcast : (4 * F.significand code * F.gridScale code grid : Rat)
        = c * F.gridUnit code grid := by
      rw [cast_gridScale, cast_gridUnit, ← mul_assoc, ← mul_assoc, hquarters, h]
    exact_mod_cast hcast
  have hlow : F.gridLow code grid = c := by
    rw [gridLow, hexact, Nat.mul_div_cancel _ hunit]
  have hrange : F.inRange code grid c := by
    have hdown : F.lowQuarters code ≤ 4 * F.significand code := by
      unfold lowQuarters
      split
      · omega
      · omega
    unfold inRange
    rw [← hexact]
    split
    · rw [Bool.and_eq_true, decide_eq_true_eq, decide_eq_true_eq]
      exact ⟨Nat.mul_le_mul_right _ hdown, Nat.mul_le_mul_right _ (by omega)⟩
    · rename_i hodd
      have hdown' : F.lowQuarters code < 4 * F.significand code := by
        unfold lowQuarters
        split
        · omega
        · omega
      rw [Bool.and_eq_true, decide_eq_true_eq, decide_eq_true_eq]
      exact ⟨Nat.mul_lt_mul_of_pos_right hdown' hscale,
        Nat.mul_lt_mul_of_pos_right (by omega) hscale⟩
  have hnear : F.isNearLow tie code grid := by
    have hless : 0 < (c + 1) * F.gridUnit code grid - c * F.gridUnit code grid := by
      rw [Nat.succ_mul]
      omega
    unfold isNearLow
    rw [hlow, hexact, Nat.sub_self]
    dsimp only
    rw [decide_eq_true hless]
    rfl
  rw [gridPoint?_eq, hlow, hrange, hnear]
  rfl

end Grid

/-- The shortest decimal number is rounded to its magnitude. -/
theorem rounds_shortest (hf : F.fractionBits ≠ 0) (tie : TieRule) (code : Nat) :
    F.Rounds (F.shortest tie code).toRat code := by
  unfold shortest
  dsimp only
  rw [Scientific.toRat_trimZeros]
  cases hfound : (List.range (F.fractionBits + 2)).findSome? fun (n : Nat) =>
      F.gridPoint? tie code ((F.exactDigits code).point - n) with
  | none =>
    rw [Option.getD_none, toRat_exactDigits]
    exact Rounds.magnitude code
  | some s =>
    obtain ⟨n, -, hn⟩ := List.exists_of_findSome?_eq_some hfound
    exact (rounds_of_gridPoint? hf hn).2

/-- The first place where a search finds something is not behind any other. -/
theorem exists_findSome?_range {α : Type} {f : Nat → Option α} {k N : Nat} (hk : k < N) {a : α}
    (ha : f k = some a) : ∃ n ≤ k, ∃ b, f n = some b ∧ (List.range N).findSome? f = some b := by
  induction N with
  | zero => cases hk
  | succ N ih =>
    rw [List.range_succ, List.findSome?_append]
    cases hfound : (List.range N).findSome? f with
    | some b =>
      obtain ⟨n, hn, hb⟩ := List.exists_of_findSome?_eq_some hfound
      by_cases hlast : k < N
      · obtain ⟨n', hn', b', hb', hsame⟩ := ih hlast
        rw [hfound] at hsame
        obtain rfl := Option.some.inj hsame
        exact ⟨n', hn', b, hb', rfl⟩
      · exact ⟨n, by have := List.mem_range.1 hn; omega, b, hb, rfl⟩
    | none =>
      have hlast : k = N := by
        by_contra hne
        rw [List.findSome?_eq_none_iff.1 hfound k (List.mem_range.2 (by omega))] at ha
        cases ha
      subst hlast
      exact ⟨k, le_rfl, a, ha, by simp [ha]⟩

/-- Where steps are not longer than one, only one whole number is rounded to a whole magnitude. -/
theorem Rounds.eq_of_whole {code n k : Nat} (hrounds : F.Rounds k code) (h : F.magnitude code = n)
    (hexponent : F.exponent code ≤ 0) : k = n := by
  have hstep : ∀ c ≤ code, (2 : Rat) ^ F.exponent c ≤ 1 := by
    intro c hc
    apply zpow_le_one_of_nonpos₀ one_le_two
    exact (F.exponent_mono hc).trans hexponent
  have hle : (k : Rat) < n + 1 := by
    have hmid := hrounds.le
    have := hstep code le_rfl
    rw [FloatFormat.midpoint, h] at hmid
    linarith
  have hge : (n : Rat) < k + 1 := by
    by_cases hzero : code = 0
    · rw [hzero, magnitude_zero] at h
      rw [← h]
      positivity
    · obtain ⟨c, rfl⟩ := Nat.exists_eq_add_one.2 (Nat.pos_of_ne_zero hzero)
      have hmid := hrounds.ge c rfl
      have := hstep c (Nat.le_succ c)
      rw [midpoint_eq_magnitude_succ_sub, h] at hmid
      linarith
  have hle' : k < n + 1 := by exact_mod_cast hle
  have hge' : n < k + 1 := by exact_mod_cast hge
  omega

/-- The digits of a whole number before its point. -/
theorem point_exactDigits (F : FloatFormat) {code n k : Nat} (hn : n ≠ 0)
    (h : F.magnitude code = n) (hlimit : n < 10 ^ k) :
    0 < (F.exactDigits code).point ∧ (F.exactDigits code).point ≤ k := by
  have hexact := F.toRat_exactDigits code
  have hone : (1 : Rat) ≤ n := by exact_mod_cast Nat.pos_of_ne_zero hn
  have hlimit' : (n : Rat) < 10 ^ (k : Int) := by exact_mod_cast hlimit
  have hzero : (F.exactDigits code).coefficient ≠ 0 := by
    intro hzero
    rw [Scientific.toRat, hzero, h, Nat.cast_zero, zero_mul] at hexact
    linarith
  obtain ⟨hlow, hhigh⟩ := Text.zpow_point_le hzero (F.exactDigits code).exponent
  rw [← Scientific.toRat, hexact, h] at hlow hhigh
  constructor
  · have hpow : (10 : Rat) ^ (0 : Int) < 10 ^ (F.exactDigits code).point := by
      rw [zpow_zero]
      exact hone.trans_lt hhigh
    exact (zpow_lt_zpow_iff_right₀ (by norm_num)).1 hpow
  · have hpow : (10 : Rat) ^ ((F.exactDigits code).point - 1) < 10 ^ (k : Int) :=
      lt_of_le_of_lt hlow hlimit'
    have := (zpow_lt_zpow_iff_right₀ (by norm_num)).1 hpow
    omega

/-- A whole number of so few bits that the steps there are not longer than one is its own shortest
form. -/
theorem toRat_shortest_of_whole (hf : F.fractionBits ≠ 0) (tie : TieRule) {code n : Nat}
    (hn : n ≠ 0) (h : F.magnitude code = n) (hexponent : F.exponent code ≤ 0)
    (hlimit : n < 10 ^ (F.fractionBits + 1)) : (F.shortest tie code).toRat = n := by
  obtain ⟨hpoint, hfew⟩ := F.point_exactDigits hn h hlimit
  obtain ⟨k, hk⟩ : ∃ k : Nat, (F.exactDigits code).point = k :=
    ⟨(F.exactDigits code).point.toNat, by omega⟩
  -- The grid of whole numbers is reached, and no finer one is tried.
  have hwhole : F.gridPoint? tie code ((F.exactDigits code).point - k) = some ⟨n, 0⟩ := by
    rw [hk, sub_self]
    apply gridPoint?_of_magnitude
    simpa using h
  obtain ⟨m, hm, s, hs, hfound⟩ := exists_findSome?_range (N := F.fractionBits + 2)
    (f := fun (n : Nat) => F.gridPoint? tie code ((F.exactDigits code).point - n))
    (by omega) hwhole
  obtain ⟨hgrid, hrounds⟩ := rounds_of_gridPoint? hf hs
  obtain ⟨j, hj⟩ : ∃ j : Nat, s.exponent = j := ⟨k - m, by omega⟩
  have hvalue : s.toRat = (s.coefficient * 10 ^ j : Nat) := by
    rw [Scientific.toRat, hj, zpow_natCast]
    push_cast
    rfl
  rw [hvalue] at hrounds
  rw [shortest, hfound, Option.getD_some, Scientific.toRat_trimZeros, hvalue,
    hrounds.eq_of_whole h hexponent]

end FloatFormat

end ColumnIndex
