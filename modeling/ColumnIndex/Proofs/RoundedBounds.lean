import ColumnIndex.Proofs.NarrowedTexts

/-!
# Rounded bounds

A text with a point is rounded when it is read. Rounding does not carry it past a number that double
precision has, in either direction, but it may come to rest on it. Where a mapper of whole numbers
does not notice the rounding, the text is as good as the number that it denotes.

Main statements: `PlainDecimal.readRat?_le`, `PlainDecimal.le_readRat?` and
`PlainDecimal.KeepsWhole.wholePart_readRat?`.
-/
namespace ColumnIndex

namespace BinaryFloat.IsNearest

variable {F : FloatFormat} {x y : BinaryFloat F} {q z : Rat}

/-- Rounding does not carry a magnitude up past a number that the format has, up to its sign. -/
theorem toRat_le (h : x.IsNearest q) (hq : 0 ≤ q) (hy : |y.toRat| = |z|) (hle : q ≤ z) :
    x.toRat ≤ z := by
  have hz : |z| = z := abs_of_nonneg (hq.trans hle)
  rw [toRat_eq_signed, abs_signed _ (F.magnitude_nonneg _), hz] at hy
  rw [← hy] at hle ⊢
  exact h.le_magnitude hle

/-- Nor does it carry the magnitude down past such a number. -/
theorem le_toRat (h : x.IsNearest q) (hy : |y.toRat| = |z|) (hle : z ≤ q) : z ≤ x.toRat := by
  rcases le_total z 0 with hz | hz
  · exact hz.trans h.nonneg
  · rw [toRat_eq_signed, abs_signed _ (F.magnitude_nonneg _), abs_of_nonneg hz] at hy
    rw [← hy] at hle ⊢
    exact h.magnitude_le hle

end BinaryFloat.IsNearest

namespace PlainDecimal

variable {p : PlainDecimal} {r z : Rat} {y : Double}

/-- A text is not read as more than a number of double precision that it does not exceed. -/
theorem readRat?_le (hr : p.readRat? = some r) (hy : y.toRat = z) (hle : p.toRat ≤ z) : r ≤ z := by
  rcases p.readRat?_cases hr with rfl | ⟨x, hx, rfl⟩
  · exact hle
  unfold toRat at hle
  cases hsign : p.sign.negative with
  | false =>
    rw [hsign, signed_false] at hle
    rw [signed_false]
    exact hx.toRat_le p.magnitude_nonneg (congrArg _ hy) hle
  | true =>
    -- below zero the magnitude is on the other side
    rw [hsign, signed_true] at hle
    rw [signed_true]
    have hneg : |y.toRat| = |-z| := by rw [hy, abs_neg]
    have hmagnitude := hx.le_toRat hneg (by linarith)
    linarith

/-- A text is not read as less than a number of double precision that it is not below. -/
theorem le_readRat? (hr : p.readRat? = some r) (hy : y.toRat = z) (hle : z ≤ p.toRat) : z ≤ r := by
  rcases p.readRat?_cases hr with rfl | ⟨x, hx, rfl⟩
  · exact hle
  unfold toRat at hle
  cases hsign : p.sign.negative with
  | false =>
    rw [hsign, signed_false] at hle
    rw [signed_false]
    exact hx.le_toRat (congrArg _ hy) hle
  | true =>
    rw [hsign, signed_true] at hle
    rw [signed_true]
    have hneg : |y.toRat| = |-z| := by rw [hy, abs_neg]
    have hmagnitude := hx.toRat_le p.magnitude_nonneg hneg (by linarith)
    linarith

/-- Where rounding is not noticed, a text in range is read with its own whole part. -/
theorem KeepsWhole.wholePart_readRat? {t : MapperTag} (h : p.KeepsWhole t) (ht : t ∈ wholeTags)
    (hr : p.readRat? = some r) (hrange : wholePart r ∈ t.wholeRange) :
    wholePart r = wholePart p.toRat := by
  have hapart : p.magnitude * (2 ^ 53 + 1) < (⌊p.magnitude⌋ + 1) * 2 ^ 53 →
      wholePart r = wholePart p.toRat := by
    intro hapart
    obtain ⟨r', hr', hwhole⟩ := p.exists_readRat?_of_apart hapart
    obtain rfl := Option.some.inj (hr.symm.trans hr')
    exact hwhole
  cases h with
  | long hlong =>
    rw [readRat?, if_pos hlong, Option.some.injEq] at hr
    rw [hr]
  | short hcoefficient => exact hapart (p.apart_of_coefficient_lt hcoefficient)
  | apart h => exact hapart h
  | outside hout hlong => exact absurd hrange (p.wholePart_notMem_of_readRat? ht hout hlong hr)

end PlainDecimal

end ColumnIndex
