import ColumnIndex.Proofs.Number.ShortestDigits

/-!
# Where the shortest decimal number lies

Of the points of a decimal grid that round to a magnitude, a nearest one is chosen. So the distance
from the magnitude says how coarse the grid is, unless the magnitude is a power of two, where the
midpoints are not equally far away. And a decimal number of few digits is the only one on its grid,
so it is the shortest one of the magnitude that it is rounded to.

Main statements: `FloatFormat.shortest_eq_or`, `FloatFormat.toRat_shortest_of_rounds`.
-/
namespace ColumnIndex.FloatFormat

variable {F : FloatFormat} {code : Nat} {grid : Int} {tie : TieRule}

/-! ## The nearest point -/

/-- Distances from points of a grid, in the unit in which they are counted. -/
theorem cast_mul_gridUnit_sub (F : FloatFormat) (code : Nat) (grid : Int) (c : Nat) :
    ((c * F.gridUnit code grid : Nat) - (4 * F.significand code * F.gridScale code grid : Nat)
        : Rat) = (c * 10 ^ grid - F.magnitude code) * F.gridFactor code grid := by
  rw [← four_mul_significand]
  push_cast
  rw [cast_gridScale, cast_gridUnit]
  ring

/-- The magnitude lies between two points of the grid, in units. -/
theorem gridLow_le (F : FloatFormat) (code : Nat) (grid : Int) :
    F.gridLow code grid * F.gridUnit code grid ≤ 4 * F.significand code * F.gridScale code grid ∧
      4 * F.significand code * F.gridScale code grid
        ≤ (F.gridLow code grid + 1) * F.gridUnit code grid := by
  have hunit : 0 < F.gridUnit code grid := Nat.mul_pos (by positivity) (by positivity)
  refine ⟨Nat.div_mul_le_self _ _, ?_⟩
  exact (Nat.lt_mul_of_div_lt (Nat.lt_succ_self _) hunit).le

/-- A point in range lies between the midpoints, or on one that belongs to the magnitude. -/
theorem le_of_inRange {c : Nat} (h : F.inRange code grid c) :
    F.lowQuarters code * F.gridScale code grid ≤ c * F.gridUnit code grid ∧
      c * F.gridUnit code grid ≤ (4 * F.significand code + 2) * F.gridScale code grid := by
  unfold inRange at h
  split at h
  · simpa using h
  · rw [Bool.and_eq_true, decide_eq_true_eq, decide_eq_true_eq] at h
    exact ⟨h.1.le, h.2.le⟩

theorem le_or_le_of_not_inRange {c : Nat} (h : F.inRange code grid c = false) :
    c * F.gridUnit code grid ≤ F.lowQuarters code * F.gridScale code grid ∨
      (4 * F.significand code + 2) * F.gridScale code grid ≤ c * F.gridUnit code grid := by
  unfold inRange at h
  split at h
  · rw [Bool.and_eq_false_iff, decide_eq_false_iff_not, decide_eq_false_iff_not] at h
    omega
  · rw [Bool.and_eq_false_iff, decide_eq_false_iff_not, decide_eq_false_iff_not] at h
    omega

/-- Of the two points around the magnitude the one in range is chosen, and of two points in range
the nearer one. -/
theorem eq_or_of_gridPoint? {s : Scientific} (h : F.gridPoint? tie code grid = some s) :
    s.coefficient = F.gridLow code grid ∧ F.inRange code grid (F.gridLow code grid) ∧
        (F.isNearLow tie code grid ∨ F.inRange code grid (F.gridLow code grid + 1) = false) ∨
      s.coefficient = F.gridLow code grid + 1 ∧ F.inRange code grid (F.gridLow code grid + 1) ∧
        (F.inRange code grid (F.gridLow code grid) = false ∨
          F.isNearLow tie code grid = false) := by
  rw [gridPoint?_eq] at h
  split at h
  · rename_i hchosen
    rw [Bool.and_eq_true, Bool.or_eq_true, Bool.not_eq_true'] at hchosen
    obtain rfl := Option.some.inj h
    exact .inl ⟨rfl, hchosen⟩
  · rename_i hother
    split at h
    · rename_i hrange
      obtain rfl := Option.some.inj h
      rw [Bool.and_eq_true, not_and_or, Bool.not_eq_true, Bool.not_eq_true,
        Bool.or_eq_false_iff] at hother
      exact .inr ⟨rfl, hrange, hother.imp_right And.left⟩
    · cases h

/-- The magnitude is nearer to the point below it, counted in units. -/
theorem le_of_isNearLow (h : F.isNearLow tie code grid) :
    4 * F.significand code * F.gridScale code grid - F.gridLow code grid * F.gridUnit code grid
      ≤ (F.gridLow code grid + 1) * F.gridUnit code grid
        - 4 * F.significand code * F.gridScale code grid := by
  simp only [isNearLow, Bool.or_eq_true, Bool.and_eq_true, decide_eq_true_eq, beq_iff_eq] at h
  omega

/-- The magnitude is nearer to the point above it, counted in units. -/
theorem le_of_isNearLow_eq_false (h : F.isNearLow tie code grid = false) :
    (F.gridLow code grid + 1) * F.gridUnit code grid
        - 4 * F.significand code * F.gridScale code grid
      ≤ 4 * F.significand code * F.gridScale code grid
        - F.gridLow code grid * F.gridUnit code grid := by
  simp only [isNearLow, Bool.or_eq_false_iff, decide_eq_false_iff_not] at h
  omega

/-- The chosen point is a nearest one, counted in units. -/
theorem gridPoint?_between (hcode : code ≠ 0)
    (hlow : F.lowQuarters code = 4 * F.significand code - 2) {s : Scientific}
    (h : F.gridPoint? tie code grid = some s) :
    2 * (s.coefficient * F.gridUnit code grid)
        ≤ 2 * (4 * F.significand code * F.gridScale code grid) + F.gridUnit code grid ∧
      2 * (4 * F.significand code * F.gridScale code grid)
        ≤ 2 * (s.coefficient * F.gridUnit code grid) + F.gridUnit code grid := by
  have hsignificand := F.significand_pos hcode
  obtain ⟨hbefore, hbehind⟩ := F.gridLow_le code grid
  have hnext : (F.gridLow code grid + 1) * F.gridUnit code grid
      = F.gridLow code grid * F.gridUnit code grid + F.gridUnit code grid := Nat.succ_mul _ _
  have hdown : F.lowQuarters code * F.gridScale code grid + 2 * F.gridScale code grid
      = 4 * F.significand code * F.gridScale code grid := by
    rw [hlow, ← Nat.add_mul, Nat.sub_add_cancel (by omega)]
  have hup : (4 * F.significand code + 2) * F.gridScale code grid
      = 4 * F.significand code * F.gridScale code grid + 2 * F.gridScale code grid :=
    Nat.add_mul _ _ _
  -- The midpoints are equally far away, so a point out of range is not nearer than one in range.
  rcases eq_or_of_gridPoint? h with ⟨hpoint, hrange, hother⟩ | ⟨hpoint, hrange, hother⟩
  · rw [hpoint]
    have := le_of_inRange hrange
    rcases hother with hnear | hother
    · have := le_of_isNearLow hnear
      omega
    · have := le_or_le_of_not_inRange hother
      omega
  · rw [hpoint]
    have := le_of_inRange hrange
    rcases hother with hother | hfar
    · have := le_or_le_of_not_inRange hother
      omega
    · have := le_of_isNearLow_eq_false hfar
      omega

/-- Where the midpoints around a magnitude are equally far away, the chosen point is a nearest one
of the grid: a nearer neighbour would be in range too. -/
theorem two_mul_abs_gridPoint?_sub_le (hf : F.fractionBits ≠ 0) (hcode : code ≠ 0)
    (hlow : F.lowQuarters code = 4 * F.significand code - 2) {s : Scientific}
    (h : F.gridPoint? tie code grid = some s) :
    2 * |s.toRat - F.magnitude code| ≤ 10 ^ grid := by
  obtain ⟨hhigh, hless⟩ := gridPoint?_between hcode hlow h
  have hgrid := (rounds_of_gridPoint? hf h).1
  have hfactor := F.gridFactor_pos code grid
  have hunits := cast_mul_gridUnit_sub F code grid s.coefficient
  have hhigh' : (2 * (s.coefficient * F.gridUnit code grid : Nat) : Rat)
      ≤ 2 * (4 * F.significand code * F.gridScale code grid : Nat) + F.gridUnit code grid := by
    exact_mod_cast hhigh
  have hless' : (2 * (4 * F.significand code * F.gridScale code grid : Nat) : Rat)
      ≤ 2 * (s.coefficient * F.gridUnit code grid : Nat) + F.gridUnit code grid := by
    exact_mod_cast hless
  rw [cast_gridUnit] at hhigh' hless'
  have hscaled : |2 * (s.coefficient * 10 ^ grid - F.magnitude code)| * F.gridFactor code grid
      ≤ 10 ^ grid * F.gridFactor code grid := by
    rw [← abs_of_pos hfactor, ← abs_mul, abs_of_pos hfactor, mul_assoc, ← hunits, abs_le]
    constructor
    · linarith
    · linarith
  have := le_of_mul_le_mul_right hscaled hfactor
  rw [Scientific.toRat, hgrid]
  rwa [abs_mul, abs_of_pos two_pos] at this

/-- The shortest decimal number is exact, or a nearest point of a decimal grid. -/
theorem shortest_eq_or (hf : F.fractionBits ≠ 0) (hcode : code ≠ 0)
    (hlow : F.lowQuarters code = 4 * F.significand code - 2) (tie : TieRule) :
    (F.shortest tie code).toRat = F.magnitude code ∨
      ∃ (c : Nat) (g : Int), (F.shortest tie code).toRat = c * 10 ^ g ∧
        2 * |(F.shortest tie code).toRat - F.magnitude code| ≤ 10 ^ g := by
  have htrim : (F.shortest tie code).toRat = (((List.range (F.fractionBits + 2)).findSome?
      fun (n : Nat) => F.gridPoint? tie code ((F.exactDigits code).point - n)).getD
        (F.exactDigits code)).toRat := by
    unfold shortest
    dsimp only
    rw [Scientific.toRat_trimZeros]
  cases hfound : (List.range (F.fractionBits + 2)).findSome? fun (n : Nat) =>
      F.gridPoint? tie code ((F.exactDigits code).point - n) with
  | none =>
    left
    rw [htrim, hfound, Option.getD_none, toRat_exactDigits]
  | some s =>
    right
    obtain ⟨n, -, hn⟩ := List.exists_of_findSome?_eq_some hfound
    rw [htrim, hfound, Option.getD_some]
    refine ⟨s.coefficient, s.exponent, rfl, ?_⟩
    rw [(rounds_of_gridPoint? hf hn).1]
    exact two_mul_abs_gridPoint?_sub_le hf hcode hlow hn

/-- Odd significant bits are not those of a power of two. -/
theorem lowQuarters_of_odd (hf : F.fractionBits ≠ 0) (hodd : F.significand code % 2 = 1) :
    F.lowQuarters code = 4 * F.significand code - 2 := by
  obtain ⟨f, hf⟩ := Nat.exists_eq_succ_of_ne_zero hf
  unfold lowQuarters
  rw [if_neg]
  rintro ⟨hfull, -⟩
  rw [hfull, hf, Nat.pow_succ, Nat.mul_mod_left] at hodd
  cases hodd

/-- The midpoints around a magnitude, in half steps. -/
theorem exists_midpoint_eq_halves (hcode : code ≠ 0)
    (hlow : F.lowQuarters code = 4 * F.significand code - 2) {c : Nat}
    (hc : c + 1 = code ∨ c = code) :
    ∃ m : Nat, (m = 2 * F.significand code + 1 ∨ m + 1 = 2 * F.significand code) ∧
      F.midpoint c = m * 2 ^ (F.exponent code - 1) ∧
      |F.midpoint c - F.magnitude code| = 2 ^ (F.exponent code - 1) := by
  have hsignificand := F.significand_pos hcode
  have hhalf : (0 : Rat) < 2 ^ (F.exponent code - 1) := by positivity
  have hmagnitude : F.magnitude code = 2 * F.significand code * 2 ^ (F.exponent code - 1) := by
    rw [magnitude, zpow_sub_one₀ two_ne_zero]
    ring
  have hquarter : (2 : Rat) ^ (F.exponent code - 2) = 2 ^ (F.exponent code - 1) / 2 := by
    rw [zpow_sub₀ two_ne_zero, zpow_sub_one₀ two_ne_zero]
    ring
  rcases hc with hc | rfl
  · have hmid : F.midpoint c = (2 * F.significand code - 1 : Nat) * 2 ^ (F.exponent code - 1) := by
      rw [midpoint_pred_eq_quarters hc, hlow, hquarter, Nat.cast_sub (by omega),
        Nat.cast_sub (by omega)]
      push_cast
      ring
    refine ⟨_, .inr (by omega), hmid, ?_⟩
    rw [hmid, hmagnitude, Nat.cast_sub (by omega), abs_sub_comm, abs_of_nonneg]
    · push_cast
      ring
    · push_cast
      linarith
  · have hmid : F.midpoint c = (2 * F.significand c + 1 : Nat) * 2 ^ (F.exponent c - 1) := by
      rw [midpoint_eq_quarters, hquarter]
      push_cast
      ring
    refine ⟨_, .inl rfl, hmid, ?_⟩
    rw [hmid, hmagnitude, abs_of_nonneg]
    · push_cast
      ring
    · push_cast
      linarith

/-! ## The only point -/

/-- What lies between two numbers that are rounded to a magnitude is rounded to it. -/
theorem Rounds.of_between (hf : F.fractionBits ≠ 0) {p q r : Rat} (hp : 0 ≤ p) (h : F.Rounds p code)
    (h' : F.Rounds r code) (hpq : p ≤ q) (hqr : q ≤ r) : F.Rounds q code := by
  obtain ⟨c, hc⟩ := exists_rounds hf (hp.trans hpq)
  have hsame : c = code := le_antisymm (hc.mono h' hqr) (h.mono hc hpq)
  exact hsame ▸ hc

/-- A grid with any point in range has a chosen one. -/
theorem exists_gridPoint?_of_rounds (hf : F.fractionBits ≠ 0) (hcode : code ≠ 0) (tie : TieRule)
    {c : Nat} (h : F.Rounds (c * 10 ^ grid) code) : ∃ s, F.gridPoint? tie code grid = some s := by
  obtain ⟨hlow, hhigh⟩ := F.gridLow_spec code grid
  have hpow : (0 : Rat) < 10 ^ grid := by positivity
  rcases Nat.lt_or_ge (F.gridLow code grid) c with hc | hc
  · have hle : ((F.gridLow code grid + 1 : Nat) * 10 ^ grid : Rat) ≤ c * 10 ^ grid := by
      gcongr
      exact hc
    have hrange := inRange_of_rounds hf hcode
      ((Rounds.magnitude code).of_between hf (F.magnitude_nonneg code) h hhigh.le hle)
    rw [gridPoint?_eq, hrange]
    split
    · exact ⟨_, rfl⟩
    · exact ⟨_, rfl⟩
  · have hle : (c * 10 ^ grid : Rat) ≤ F.gridLow code grid * 10 ^ grid := by gcongr
    exact exists_gridPoint? tie (inRange_of_rounds hf hcode
      (h.of_between hf (by positivity) (Rounds.magnitude code) hle hlow))

/-- Two numbers that are rounded to the same magnitude are not a step apart from each other. -/
theorem Rounds.abs_sub_le_step {p q : Rat} (h : F.Rounds p code) (h' : F.Rounds q code)
    (hcode : code ≠ 0) : |p - q| ≤ 2 ^ F.exponent code := by
  obtain ⟨b, rfl⟩ := Nat.exists_eq_succ_of_ne_zero hcode
  have hstep : (2 : Rat) ^ F.exponent b ≤ 2 ^ F.exponent (b + 1) :=
    zpow_le_zpow_right₀ one_le_two (F.exponent_mono (Nat.le_succ b))
  have hlow := h.ge b rfl
  have hlow' := h'.ge b rfl
  have hhigh := h.le
  have hhigh' := h'.le
  rw [midpoint_eq_magnitude_succ_sub] at hlow hlow'
  unfold FloatFormat.midpoint at hhigh hhigh'
  rw [abs_le]
  constructor
  · linarith
  · linarith

/-- Where the points of a grid are more than a step apart, one of them at most is rounded to a
magnitude. -/
theorem eq_of_rounds {a b : Nat} (hcode : code ≠ 0)
    (hstep : (2 : Rat) ^ F.exponent code < 10 ^ grid)
    (ha : F.Rounds (a * 10 ^ grid) code) (hb : F.Rounds (b * 10 ^ grid) code) : a = b := by
  have hpow : (0 : Rat) < 10 ^ grid := by positivity
  have hapart := (ha.abs_sub_le_step hb hcode).trans_lt hstep
  rw [← sub_mul, abs_mul, abs_of_pos hpow, mul_lt_iff_lt_one_left hpow, abs_lt] at hapart
  obtain ⟨hbelow, habove⟩ := hapart
  have hbelow' : (b : Rat) < a + 1 := by linarith
  have habove' : (a : Rat) < b + 1 := by linarith
  exact le_antisymm (Nat.lt_succ_iff.1 (by exact_mod_cast habove'))
    (Nat.lt_succ_iff.1 (by exact_mod_cast hbelow'))

/-- Rounding does not lead far from a number that is not among the smallest. -/
theorem Rounds.magnitude_near {q : Rat} (h : F.Rounds q code)
    (hq : 2 ^ (F.minExponent + F.fractionBits) ≤ q) :
    q ≤ 2 * F.magnitude code ∧ F.magnitude code ≤ 2 * q := by
  have hpos : (0 : Rat) < q := lt_of_lt_of_le (by positivity) hq
  have herror := h.abs_sub_mul_le hq
  have htwo : (2 : Rat) ≤ 2 ^ (F.fractionBits + 1) := le_self_pow₀ one_le_two (Nat.succ_ne_zero _)
  have hmul := mul_le_mul_of_nonneg_left htwo (abs_nonneg (F.magnitude code - q))
  have hnear : |F.magnitude code - q| ≤ q / 2 := by linarith
  obtain ⟨hlow, hhigh⟩ := abs_le.1 hnear
  constructor
  · linarith
  · linarith

/-- The grid of a number of few digits is one of those that are searched first. -/
theorem exists_point_sub_eq (hcode : code ≠ 0) {c : Nat} (hc : c < 10 ^ 14) (hc0 : c ≠ 0)
    (hleast : c * 10 ^ grid ≤ 2 * F.magnitude code)
    (hmost : F.magnitude code ≤ 2 * (c * 10 ^ grid)) :
    ∃ k : Nat, (F.exactDigits code).point - k = grid ∧ k ≤ 15 := by
  have hpow : (0 : Rat) < 10 ^ grid := by positivity
  have hone : (1 : Rat) ≤ c := by exact_mod_cast Nat.pos_of_ne_zero hc0
  have hsmall : (10 : Rat) ^ grid ≤ c * 10 ^ grid := le_mul_of_one_le_left hpow.le hone
  have hc' : (c : Rat) < 10 ^ 14 := by exact_mod_cast hc
  have hlarge : (c * 10 ^ grid : Rat) < 10 ^ 14 * 10 ^ grid := by gcongr
  obtain ⟨hlow, hhigh⟩ := F.zpow_point_exactDigits hcode
  have hbefore : (10 : Rat) ^ (grid - 1) < 10 ^ (F.exactDigits code).point := by
    rw [zpow_sub_one₀ ten_ne_zero]
    linarith
  have hbehind : (10 : Rat) ^ ((F.exactDigits code).point - 1) < 10 ^ (grid + 15) := by
    rw [zpow_add₀ ten_ne_zero]
    refine hlow.trans_lt ?_
    norm_num
    linarith
  have hbefore' := (zpow_lt_zpow_iff_right₀ (by norm_num)).1 hbefore
  have hbehind' := (zpow_lt_zpow_iff_right₀ (by norm_num)).1 hbehind
  exact ⟨((F.exactDigits code).point - grid).toNat, by omega, by omega⟩

/-- On the grid of a number of few digits the points are more than a step apart. -/
theorem two_zpow_exponent_lt (hbits : 50 ≤ F.fractionBits) {c : Nat} (hc : c < 10 ^ 14)
    (hnormal : 2 ^ (F.minExponent + F.fractionBits) ≤ (c * 10 ^ grid : Rat))
    (hmost : F.magnitude code ≤ 2 * (c * 10 ^ grid)) :
    (2 : Rat) ^ F.exponent code < 10 ^ grid := by
  have hpow : (0 : Rat) < 10 ^ grid := by positivity
  have hpositive : (0 : Rat) < c * 10 ^ grid := lt_of_lt_of_le (by positivity) hnormal
  have hc' : (c : Rat) < 10 ^ 14 := by exact_mod_cast hc
  have hlarge : (c * 10 ^ grid : Rat) < 10 ^ 14 * 10 ^ grid := by gcongr
  have hmul : (2 : Rat) ^ F.exponent code * 2 ^ F.fractionBits ≤ 2 * (c * 10 ^ grid) :=
    two_zpow_exponent_mul_le (by linarith) hmost
  have hfew : (2 : Rat) ^ F.exponent code * 2 ^ 50
      ≤ 2 ^ F.exponent code * 2 ^ F.fractionBits := by
    gcongr
    exact one_le_two
  linarith

/-- A decimal number of few digits is the shortest one of the magnitude that it is rounded to. -/
theorem toRat_shortest_of_rounds (hbits : 50 ≤ F.fractionBits) (tie : TieRule) {c : Nat}
    (hc : c < 10 ^ 14) (hnormal : 2 ^ (F.minExponent + F.fractionBits) ≤ (c * 10 ^ grid : Rat))
    (h : F.Rounds (c * 10 ^ grid) code) : (F.shortest tie code).toRat = c * 10 ^ grid := by
  have hf : F.fractionBits ≠ 0 := by omega
  have hpositive : (0 : Rat) < c * 10 ^ grid := lt_of_lt_of_le (by positivity) hnormal
  obtain ⟨hleast, hmost⟩ := h.magnitude_near hnormal
  have hcode : code ≠ 0 := by
    rintro rfl
    rw [magnitude_zero] at hleast
    linarith
  have hc0 : c ≠ 0 := by
    rintro rfl
    simp at hpositive
  obtain ⟨k, hk, hfew⟩ := exists_point_sub_eq hcode hc hc0 hleast hmost
  -- The grid is reached, and what is found before is a point of it too.
  obtain ⟨t, ht⟩ := exists_gridPoint?_of_rounds hf hcode tie h
  rw [← hk] at ht
  obtain ⟨n, hn, s, hs, hfound⟩ := exists_findSome?_range (N := F.fractionBits + 2)
    (f := fun (n : Nat) => F.gridPoint? tie code ((F.exactDigits code).point - n))
    (by omega) ht
  obtain ⟨hgrid, hrounds⟩ := rounds_of_gridPoint? hf hs
  have hvalue : s.toRat = (s.coefficient * 10 ^ (k - n) : Nat) * 10 ^ grid := by
    have hexponent : s.exponent = (k - n : Nat) + grid := by omega
    rw [Scientific.toRat, hexponent, zpow_add₀ ten_ne_zero, zpow_natCast]
    push_cast
    ring
  rw [hvalue] at hrounds
  have hsame := eq_of_rounds hcode (two_zpow_exponent_lt hbits hc hnormal hmost) hrounds h
  rw [shortest, hfound, Option.getD_some, Scientific.toRat_trimZeros, hvalue, hsame]

/-- What is whole has a whole shortest form: no grid finer than that of the whole numbers is
tried. -/
theorem exists_shortest_eq_natCast (hf : F.fractionBits ≠ 0) (tie : TieRule) {n : Nat} (hn : n ≠ 0)
    (h : F.magnitude code = n) : ∃ m : Nat, (F.shortest tie code).toRat = m := by
  obtain ⟨hpoint, -⟩ := F.point_exactDigits hn h (Nat.lt_pow_self (by decide : 1 < 10))
  obtain ⟨k, hk⟩ : ∃ k : Nat, (F.exactDigits code).point = k :=
    ⟨(F.exactDigits code).point.toNat, by omega⟩
  rw [shortest, Scientific.toRat_trimZeros]
  cases hfound : (List.range (F.fractionBits + 2)).findSome? fun (n : Nat) =>
      F.gridPoint? tie code ((F.exactDigits code).point - n) with
  | none => exact ⟨n, by rw [Option.getD_none, toRat_exactDigits, h]⟩
  | some s =>
    obtain ⟨j, hj, hs, hplace⟩ : ∃ j : Nat, j < F.fractionBits + 2 ∧
        F.gridPoint? tie code ((F.exactDigits code).point - j) = some s ∧
          (k < F.fractionBits + 2 → j ≤ k) := by
      by_cases hreached : k < F.fractionBits + 2
      · have hwhole : F.gridPoint? tie code ((F.exactDigits code).point - k) = some ⟨n, 0⟩ := by
          rw [hk, sub_self]
          apply gridPoint?_of_magnitude
          rw [h, zpow_zero, mul_one]
        obtain ⟨j, hj, s', hs', hfound'⟩ := exists_findSome?_range
          (f := fun (n : Nat) => F.gridPoint? tie code ((F.exactDigits code).point - n))
          hreached hwhole
        rw [hfound] at hfound'
        obtain rfl := Option.some.inj hfound'
        exact ⟨j, by omega, hs', fun _ => hj⟩
      · obtain ⟨j, hj, hs⟩ := List.exists_of_findSome?_eq_some hfound
        exact ⟨j, List.mem_range.1 hj, hs, fun hreached' => absurd hreached' hreached⟩
    have hexponent : s.exponent = (k - j : Nat) := by
      rw [(rounds_of_gridPoint? hf hs).1, hk]
      omega
    refine ⟨s.coefficient * 10 ^ (k - j), ?_⟩
    rw [Option.getD_some, Scientific.toRat, hexponent, zpow_natCast]
    push_cast
    rfl

end ColumnIndex.FloatFormat
