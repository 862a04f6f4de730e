import ColumnIndex.Proofs.Number.Arithmetic

/-!
# Order of floating-point numbers

A number has its place on a line of codes with signs, and the places stand in the order of the
rational numbers that are denoted. So a comparison of finite numbers is one of rational numbers,
and what lies between two finite numbers is finite itself.

Main statements: `BinaryFloat.lt_iff`, `BinaryFloat.le_iff`, `BinaryFloat.between_iff`.
-/
namespace ColumnIndex.BinaryFloat

variable {F : FloatFormat} {x y low high : BinaryFloat F}

/-! ## Places -/

/-- Places stand in the order of the rational numbers. -/
theorem toRat_lt_iff_place : x.toRat < y.toRat ↔ x.place < y.place := by
  have hmono := F.magnitude_strictMono
  have hx := F.magnitude_nonneg x.code
  have hy := F.magnitude_nonneg y.code
  have hzero {code : Nat} : F.magnitude code ≤ 0 ↔ code = 0 := by
    rw [← F.magnitude_zero, hmono.le_iff_le, Nat.le_zero]
  rw [toRat_eq_signed, toRat_eq_signed, place, place]
  cases x.negative with
  | false =>
    cases y.negative with
    | false => simp [hmono.lt_iff_lt]
    | true =>
      simp only [signed_false, signed_true, if_true, Bool.false_eq_true, if_false]
      constructor
      · intro h
        linarith
      · intro h
        omega
  | true =>
    cases y.negative with
    | false =>
      simp only [signed_false, signed_true, if_true, Bool.false_eq_true, if_false]
      rw [← not_le, ← not_le, not_iff_not]
      constructor
      · intro h
        have hcodes : x.code = 0 ∧ y.code = 0 :=
          ⟨hzero.1 (by linarith), hzero.1 (by linarith)⟩
        omega
      · intro h
        have hcodes : x.code = 0 ∧ y.code = 0 := by omega
        rw [hcodes.1, hcodes.2, F.magnitude_zero, neg_zero]
    | true => simp [hmono.lt_iff_lt]

theorem toRat_le_iff_place : x.toRat ≤ y.toRat ↔ x.place ≤ y.place := by
  rw [← not_lt, ← not_lt, toRat_lt_iff_place]

/-! ## Comparisons -/

theorem lt_iff (hx : x.isFinite) (hy : y.isFinite) : x.lt y ↔ x.toRat < y.toRat := by
  simp [lt, not_isNaN_of_isFinite hx, not_isNaN_of_isFinite hy, toRat_lt_iff_place]

theorem le_iff (hx : x.isFinite) (hy : y.isFinite) : x.le y ↔ x.toRat ≤ y.toRat := by
  simp [le, not_isNaN_of_isFinite hx, not_isNaN_of_isFinite hy, toRat_le_iff_place]

/-- Of two numbers one is less than the other or not, unless either is none. -/
theorem lt_iff_not_le (hx : x.isNaN = false) (hy : y.isNaN = false) :
    x.lt y ↔ y.le x = false := by
  simp [lt, le, hx, hy]

/-- What lies between two finite numbers is finite. -/
theorem isFinite_of_between (hlow : low.isFinite) (hhigh : high.isFinite) (h : low.le x)
    (h' : x.le high) : x.isFinite := by
  simp only [le, Bool.and_eq_true, Bool.not_eq_true', place] at h h'
  rw [isFinite_iff] at hlow hhigh ⊢
  grind

/-- The numbers between two finite ones. -/
theorem between_iff (hlow : low.isFinite) (hhigh : high.isFinite) :
    (low.le x && x.le high) ↔ x.isFinite ∧ low.toRat ≤ x.toRat ∧ x.toRat ≤ high.toRat := by
  rw [Bool.and_eq_true]
  constructor
  · rintro ⟨h, h'⟩
    have hx := isFinite_of_between hlow hhigh h h'
    exact ⟨hx, (le_iff hlow hx).1 h, (le_iff hx hhigh).1 h'⟩
  · rintro ⟨hx, h, h'⟩
    exact ⟨(le_iff hlow hx).2 h, (le_iff hx hhigh).2 h'⟩

/-! ## Comparisons with zero -/

theorem toRat_zero (negative : Bool) : (zero negative : BinaryFloat F).toRat = 0 := by
  rw [toRat_eq_signed, code_zero, F.magnitude_zero]
  cases negative with
  | false => rfl
  | true => exact neg_zero

theorem isFinite_zero (hx : x.isFinite) (negative : Bool) :
    (zero negative : BinaryFloat F).isFinite := by
  rw [isFinite_iff] at hx ⊢
  exact Nat.lt_of_le_of_lt (Nat.zero_le _) hx

theorem zero_lt_iff (hx : x.isFinite) : (zero false).lt x ↔ 0 < x.toRat := by
  rw [lt_iff (isFinite_zero hx false) hx, toRat_zero]

theorem lt_zero_iff (hx : x.isFinite) : x.lt (zero false) ↔ x.toRat < 0 := by
  rw [lt_iff hx (isFinite_zero hx false), toRat_zero]

/-! ## Products -/

/-- A product of finite numbers is a number, be it an infinite one. -/
theorem isNaN_mul (hx : x.isFinite) (hy : y.isFinite) : (x.mul y).isNaN = false := by
  rw [mul, not_isNaN_of_isFinite hx, not_isNaN_of_isFinite hy, not_isInfinite_of_isFinite hx,
    not_isInfinite_of_isFinite hy]
  exact decide_eq_false (Nat.not_lt.2 (F.nearestCode_le _ _))

end ColumnIndex.BinaryFloat
