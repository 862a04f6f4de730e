import ColumnIndex.Proofs.Number.DecimalRounding

/-!
# Operations that are exact

A number whose magnitude the format has is not changed by rounding, whatever its sign is. So sums
and quotients by two are exact as long as they are whole numbers of fifty-three bits over a power
of two.

Main statements: `BinaryFloat.toRat?_ofRat_of_magnitude`, `BinaryFloat.toRat?_ofRat_dyadic`,
`BinaryFloat.toRat?_ofInt`.
-/
namespace ColumnIndex.BinaryFloat

section Kept

variable {F : FloatFormat} {x y : BinaryFloat F} {q r : Rat}

theorem toRat?_eq_some : x.toRat? = some q ↔ x.isFinite ∧ x.toRat = q := by
  rw [toRat?, Option.ite_none_right_eq_some, Option.some.injEq]

/-- What has a magnitude of the format is kept with its sign. -/
theorem toRat?_ofRat_of_magnitude (hf : F.fractionBits ≠ 0) (negative : Bool) {code : Nat}
    (h : |q| = F.magnitude code) (hc : code < F.infinityCode) :
    (ofRat negative q : BinaryFloat F).toRat? = some q := by
  -- The sign that is given counts for zero only.
  obtain ⟨sign, hsign, hq⟩ : ∃ sign, (ofRat negative q : BinaryFloat F) = ofRat sign q ∧
      q = signed sign |q| := by
    rcases lt_trichotomy q 0 with hneg | rfl | hpos
    · exact ⟨true, ofRat_of_ne_zero _ _ hneg.ne, by rw [abs_of_neg hneg, signed_true, neg_neg]⟩
    · exact ⟨negative, rfl, by cases negative <;> simp⟩
    · exact ⟨false, ofRat_of_ne_zero _ _ hpos.ne', by rw [abs_of_pos hpos, signed_false]⟩
  rw [h] at hq
  have hcode : (ofRat sign q : BinaryFloat F) = ofCode sign code hc.le := by
    rw [hq]
    exact ofRat_signed hf sign (F.magnitude_nonneg code) (FloatFormat.Rounds.magnitude code) hc.le
  rw [hsign, hcode, toRat?_eq_some]
  exact ⟨isFinite_iff.2 hc, hq.symm⟩

/-- A sum is rounded once. -/
theorem exists_add_eq (hx : x.toRat? = some q) (hy : y.toRat? = some r) :
    ∃ negative, x.add y = ofRat negative (q + r) := by
  obtain ⟨hx', rfl⟩ := toRat?_eq_some.1 hx
  obtain ⟨hy', rfl⟩ := toRat?_eq_some.1 hy
  refine ⟨x.negative && y.negative, ?_⟩
  simp [add, not_isNaN_of_isFinite hx', not_isNaN_of_isFinite hy', not_isInfinite_of_isFinite hx',
    not_isInfinite_of_isFinite hy']

/-- So is a quotient, unless it is by zero. -/
theorem exists_div_eq (hx : x.toRat? = some q) (hy : y.toRat? = some r) (hr : r ≠ 0) :
    ∃ negative, x.div y = ofRat negative (q / r) := by
  obtain ⟨hx', rfl⟩ := toRat?_eq_some.1 hx
  obtain ⟨hy', rfl⟩ := toRat?_eq_some.1 hy
  have hzero : y.isZero = false := by
    rw [isZero, beq_eq_false_iff_ne]
    intro hcode
    apply hr
    rw [toRat_eq_signed, hcode, F.magnitude_zero]
    cases y.negative with
    | false => rfl
    | true => exact neg_zero
  refine ⟨x.negative != y.negative, ?_⟩
  simp [div, not_isNaN_of_isFinite hx', not_isNaN_of_isFinite hy', not_isInfinite_of_isFinite hx',
    not_isInfinite_of_isFinite hy', hzero]

end Kept

/-- Whole numbers of fifty-three bits over a power of two are kept. -/
theorem toRat?_ofRat_dyadic (negative : Bool) {i : Int} {e : Nat} (hi : i.natAbs ≤ 2 ^ 53)
    (he : e ≤ 1000) : (ofRat negative (i / 2 ^ e) : Double).toRat? = some ((i / 2 ^ e : Rat)) := by
  obtain ⟨code, hcode⟩ := FloatFormat.exists_magnitude_eq (F := .double) hi (1074 - e)
  have hexponent : FloatFormat.double.minExponent + (1074 - e : Nat) = -(e : Int) := by
    have : FloatFormat.double.minExponent = -1074 := by decide
    rw [this]
    omega
  have hpow : (1 : Rat) ≤ 2 ^ e := one_le_pow₀ one_le_two
  have hvalue : |(i / 2 ^ e : Rat)| = FloatFormat.double.magnitude code := by
    rw [hcode, hexponent, zpow_neg, zpow_natCast, abs_div, abs_of_pos (zero_lt_one.trans_le hpow),
      ← div_eq_mul_inv, Nat.cast_natAbs, Int.cast_abs]
  have hrange : FloatFormat.double.magnitude code
      < 2 ^ 2 ^ (FloatFormat.double.exponentBits - 1) := by
    have hi' : |(i : Rat)| ≤ 2 ^ 53 := by
      rw [← Int.cast_abs, ← Nat.cast_natAbs]
      exact_mod_cast hi
    calc FloatFormat.double.magnitude code = |(i : Rat)| / 2 ^ e := by
          rw [← hvalue, abs_div, abs_of_pos (zero_lt_one.trans_le hpow)]
      _ ≤ |(i : Rat)| := div_le_self (abs_nonneg _) hpow
      _ ≤ 2 ^ 53 := hi'
      _ < _ := pow_lt_pow_right₀ one_lt_two (by decide)
  exact toRat?_ofRat_of_magnitude (by decide) negative hvalue
    ((FloatFormat.double.lt_infinityCode_iff (by decide)).2 hrange)

theorem toRat?_ofInt {i : Int} (hi : i.natAbs ≤ 2 ^ 53) :
    (ofInt i : Double).toRat? = some (i : Rat) := by
  have h := toRat?_ofRat_dyadic false (e := 0) hi (Nat.zero_le _)
  simpa [ofInt] using h

end ColumnIndex.BinaryFloat
