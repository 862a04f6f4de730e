import ColumnIndex.Proofs.Number.Shortest

/-!
# How many digits are enough

Between the midpoints around a magnitude there is always a decimal number of few digits. The grid
on which a step is shorter than a quarter of a step between magnitudes has a point there, so the
search for the shortest digits ends on that grid or on a coarser one.

Main statement: `FloatFormat.coefficient_shortest_le`.
-/
namespace ColumnIndex

namespace Scientific

/-- Without zeros at its end a coefficient is not greater. -/
theorem coefficient_trimZeros_le (n : Nat) (s : Scientific) :
    (s.trimZeros n).coefficient ≤ s.coefficient := by
  induction n generalizing s with
  | zero => exact le_rfl
  | succ n ih =>
    unfold trimZeros
    split
    · exact (ih _).trans (Nat.div_le_self _ _)
    · exact le_rfl

end Scientific

namespace FloatFormat

variable {F : FloatFormat} {code : Nat} {grid : Int}

theorem significand_pos (F : FloatFormat) (hcode : code ≠ 0) : 0 < F.significand code := by
  have hparts := F.shift_mul_add_significand code
  have hpos := Nat.two_pow_pos F.fractionBits
  rcases F.shift_eq_zero_or code with h | h
  · rw [h] at hparts
    omega
  · omega

theorem magnitude_pos (F : FloatFormat) (hcode : code ≠ 0) : 0 < F.magnitude code := by
  rw [← F.magnitude_zero]
  exact F.magnitude_strictMono (Nat.pos_of_ne_zero hcode)

/-- The quarters of a step that make a magnitude. -/
theorem four_mul_significand (F : FloatFormat) (code : Nat) :
    (4 * F.significand code : Nat) * (2 : Rat) ^ (F.exponent code - 2) = F.magnitude code := by
  rw [magnitude, zpow_sub₀ two_ne_zero]
  push_cast
  ring

/-! ## Points in range -/

/-- The last point up to a magnitude is up to it, and the next one is not. -/
theorem gridLow_spec (F : FloatFormat) (code : Nat) (grid : Int) :
    (F.gridLow code grid * 10 ^ grid : Rat) ≤ F.magnitude code ∧
      F.magnitude code < ((F.gridLow code grid + 1 : Nat) : Rat) * 10 ^ grid := by
  have hunit : 0 < F.gridUnit code grid := Nat.mul_pos (by positivity) (by positivity)
  rw [← four_mul_significand]
  constructor
  · rw [← mul_gridUnit_le_iff]
    exact Nat.div_mul_le_self _ _
  · rw [← not_le, ← mul_gridUnit_le_iff, Nat.not_le]
    exact Nat.lt_mul_of_div_lt (Nat.lt_succ_self _) hunit

/-- A grid with steps shorter than a quarter of a step has a point in range. -/
theorem inRange_gridLow (hcode : code ≠ 0) (h : (10 : Rat) ^ grid ≤ 2 ^ (F.exponent code - 2)) :
    F.inRange code grid (F.gridLow code grid) := by
  obtain ⟨hlow, hhigh⟩ := F.gridLow_spec code grid
  have hsignificand := F.significand_pos hcode
  have hquarter : F.lowQuarters code ≤ 4 * F.significand code - 1 := by
    unfold lowQuarters
    split
    · exact le_rfl
    · omega
  have hbelow : F.lowQuarters code * F.gridScale code grid
      < F.gridLow code grid * F.gridUnit code grid := by
    rw [← Nat.not_le, mul_gridUnit_le_iff, not_le]
    calc (F.lowQuarters code * 2 ^ (F.exponent code - 2) : Rat)
        ≤ ((4 * F.significand code - 1 : Nat) : Rat) * 2 ^ (F.exponent code - 2) := by gcongr
      _ = F.magnitude code - 2 ^ (F.exponent code - 2) := by
          rw [Nat.cast_sub (by omega), sub_mul, four_mul_significand, Nat.cast_one, one_mul]
      _ < F.gridLow code grid * 10 ^ grid := by
          rw [Nat.cast_succ, add_mul, one_mul] at hhigh
          linarith
  have habove : F.gridLow code grid * F.gridUnit code grid
      < (4 * F.significand code + 2) * F.gridScale code grid := by
    rw [← Nat.not_le, mul_gridScale_le_iff, not_le]
    have hmid := magnitude_lt_midpoint (F := F) code
    rw [midpoint_eq_quarters] at hmid
    exact hlow.trans_lt hmid
  unfold inRange
  split
  · rw [Bool.and_eq_true, decide_eq_true_eq, decide_eq_true_eq]
    exact ⟨hbelow.le, habove.le⟩
  · rw [Bool.and_eq_true, decide_eq_true_eq, decide_eq_true_eq]
    exact ⟨hbelow, habove⟩

/-- If the point up to a magnitude is in range, one of its two neighbours is chosen. -/
theorem exists_gridPoint? (tie : TieRule) (h : F.inRange code grid (F.gridLow code grid)) :
    ∃ s, F.gridPoint? tie code grid = some s := by
  rw [gridPoint?_eq, h, Bool.true_and]
  cases F.isNearLow tie code grid with
  | true => exact ⟨_, rfl⟩
  | false =>
    cases F.inRange code grid (F.gridLow code grid + 1) with
    | true => exact ⟨_, rfl⟩
    | false => exact ⟨_, rfl⟩

/-- The chosen point is the one up to the magnitude or the next. -/
theorem coefficient_gridPoint?_le {tie : TieRule} {s : Scientific}
    (h : F.gridPoint? tie code grid = some s) : s.coefficient ≤ F.gridLow code grid + 1 := by
  rw [gridPoint?_eq] at h
  split at h
  · obtain rfl := Option.some.inj h
    exact Nat.le_succ _
  · split at h
    · obtain rfl := Option.some.inj h
      exact le_rfl
    · cases h

/-! ## The search -/

/-- The place of the point says between which powers of ten a magnitude is. -/
theorem zpow_point_exactDigits (F : FloatFormat) (hcode : code ≠ 0) :
    (10 : Rat) ^ ((F.exactDigits code).point - 1) ≤ F.magnitude code ∧
      F.magnitude code < 10 ^ (F.exactDigits code).point := by
  have hexact := F.toRat_exactDigits code
  have hne : (F.exactDigits code).coefficient ≠ 0 := by
    intro hzero
    rw [Scientific.toRat, hzero, Nat.cast_zero, zero_mul] at hexact
    exact (F.magnitude_pos hcode).ne hexact
  rw [← hexact]
  exact Text.zpow_point_le hne _

/-- With one digit more than the bits of a quarter of a step take, the search ends. -/
theorem coefficient_shortest_le {k : Nat} (hbits : 2 ^ (F.fractionBits + 3) ≤ 10 ^ k)
    (hk : k ≤ F.fractionBits) (tie : TieRule) (hcode : code ≠ 0) :
    (F.shortest tie code).coefficient ≤ 10 ^ (k + 1) := by
  obtain ⟨hlow, hhigh⟩ := F.zpow_point_exactDigits hcode
  have hsplit : ∀ n : Nat, (10 : Rat) ^ ((F.exactDigits code).point - n) * 10 ^ n
      = 10 ^ (F.exactDigits code).point := by
    intro n
    rw [← zpow_natCast, ← zpow_add₀ ten_ne_zero, sub_add_cancel]
  have hfine : (10 : Rat) ^ ((F.exactDigits code).point - (k + 1 : Nat))
      ≤ 2 ^ (F.exponent code - 2) := by
    have hquarters : ((4 * F.significand code : Nat) : Rat) ≤ 10 ^ k := by
      have hlt := F.significand_lt code
      have hpow : 4 * 2 ^ (F.fractionBits + 1) = 2 ^ (F.fractionBits + 3) := by ring
      exact_mod_cast (by omega : 4 * F.significand code ≤ 2 ^ (F.fractionBits + 3)).trans hbits
    have hstep : F.magnitude code ≤ 10 ^ k * 2 ^ (F.exponent code - 2) := by
      rw [← four_mul_significand]
      gcongr
    have hpow : (10 : Rat) ^ ((F.exactDigits code).point - 1)
        = 10 ^ k * 10 ^ ((F.exactDigits code).point - (k + 1 : Nat)) := by
      rw [← zpow_natCast, ← zpow_add₀ ten_ne_zero]
      congr 1
      push_cast
      ring
    rw [hpow] at hlow
    exact le_of_mul_le_mul_left (hlow.trans hstep) (by positivity)
  obtain ⟨s, hs⟩ := exists_gridPoint? tie (inRange_gridLow hcode hfine)
  obtain ⟨n, hn, t, ht, hfound⟩ := exists_findSome?_range (N := F.fractionBits + 2)
    (f := fun (n : Nat) => F.gridPoint? tie code ((F.exactDigits code).point - n))
    (by omega) hs
  have hpoint : F.gridLow code ((F.exactDigits code).point - n) < 10 ^ n := by
    have hbelow := (F.gridLow_spec code ((F.exactDigits code).point - n)).1.trans_lt hhigh
    rw [← hsplit n, mul_comm] at hbelow
    have hcast := lt_of_mul_lt_mul_left hbelow (by positivity)
    exact_mod_cast hcast
  rw [shortest, hfound, Option.getD_some]
  calc (t.trimZeros t.digits.length).coefficient ≤ t.coefficient :=
        Scientific.coefficient_trimZeros_le _ _
    _ ≤ F.gridLow code ((F.exactDigits code).point - n) + 1 := coefficient_gridPoint?_le ht
    _ ≤ 10 ^ n := hpoint
    _ ≤ 10 ^ (k + 1) := Nat.pow_le_pow_right (by norm_num) hn

end FloatFormat

end ColumnIndex
