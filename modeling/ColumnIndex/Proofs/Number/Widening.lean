import ColumnIndex.Value.Literal

/-!
# Widening

A number of single precision is widened through its shortest digits. What is no number and the
infinities have texts of their own, which name the same things at either precision.

Main statement: `BinaryFloat.widen_of_not_isFinite`.
-/
namespace ColumnIndex.BinaryFloat

variable {F : FloatFormat}

/-- A number is finite, infinite or none at all. -/
theorem finite_or (x : BinaryFloat F) : x.isFinite ∨ x.isInfinite ∨ x.isNaN := by
  simp only [isFinite, isInfinite, isNaN, decide_eq_true_eq, beq_iff_eq]
  omega

/-! ## Texts that name no finite number -/

theorem parse?_nan : (parse? ['N', 'a', 'N'] : Option Double) = some nan := rfl

theorem parse?_infinity : (parse? ['i', 'n', 'f'] : Option Double) = some (infinity false) := rfl

theorem parse?_negInfinity :
    (parse? ['-', 'i', 'n', 'f'] : Option Double) = some (infinity true) := rfl

/-- A number whose text names one that is not finite is widened to that one. -/
theorem widen_of_chars {x : Single} {y : Double} (hread : parse? (x.chars .plain) = some y)
    (hy : y.isFinite = false) (hchars : y.chars .plain = x.chars .plain) :
    x.widen.isFinite = false ∧ x.widen.plainText = x.plainText := by
  have hwiden : x.widen = y := by rw [widen, hread, Option.getD_some]
  rw [hwiden]
  refine ⟨hy, ?_⟩
  rw [plainText, text, hchars]
  rfl

/-- A number that is not finite is widened to one with the same text. -/
theorem widen_of_not_isFinite {x : Single} (h : x.isFinite = false) :
    x.widen.isFinite = false ∧ x.widen.plainText = x.plainText := by
  by_cases hnan : x.isNaN
  · have hchars : x.chars .plain = ['N', 'a', 'N'] := by simp [chars, hnan]
    exact widen_of_chars (hchars ▸ parse?_nan) (by decide) (hchars ▸ rfl)
  · have hinf : x.isInfinite := by
      rcases finite_or x with hx | hx | hx
      · simp [h] at hx
      · exact hx
      · exact absurd hx hnan
    cases hneg : x.negative with
    | false =>
      have hchars : x.chars .plain = ['i', 'n', 'f'] := by simp [chars, hnan, hinf, hneg]
      exact widen_of_chars (hchars ▸ parse?_infinity) (by decide) (hchars ▸ rfl)
    | true =>
      have hchars : x.chars .plain = ['-', 'i', 'n', 'f'] := by simp [chars, hnan, hinf, hneg]
      exact widen_of_chars (hchars ▸ parse?_negInfinity) (by decide) (hchars ▸ rfl)

end ColumnIndex.BinaryFloat
