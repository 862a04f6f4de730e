import ColumnIndex.Proofs.Number.DecimalErrors
import ColumnIndex.Proofs.NumberPayloads

/-!
# Decimal numbers as literals

The literal of a decimal number is its text. A mapper of decimal numbers reads the number again. Any
other mapper of numbers reads the text as the number of double precision nearest to it, unless it
is a whole number of sixty-four bits, while the number itself is converted in steps or cut off
without any rounding. So the two have the same payload if the steps lead to the nearest number, or
to one that is narrowed or cut off alike.

Main statements: `Numeric.toInt?_text`, `Numeric.toDouble?_text`, `Numeric.toSingle?_text`,
`Decimal.toDouble_eq_nearest_or`, `Decimal.convert_toDouble_eq_or`.
-/
namespace ColumnIndex

variable {d : Decimal}

/-- A whole number is converted in one step, and as the nearest one if it is not zero. -/
theorem Decimal.toDouble_of_scale (hs : d.scale = 0) : d.toDouble = .ofInt d.truncate := by
  rw [toDouble, if_pos hs]

theorem Decimal.nearest_of_scale (hs : d.scale = 0) (hne : d.truncate ≠ 0) :
    d.nearest = .ofInt d.truncate := by
  have hvalue : d.toRat = d.truncate := by
    rw [toRat, truncate, hs, pow_zero, div_one, Nat.pow_zero, Nat.div_one]
  rw [nearest, hvalue, BinaryFloat.ofInt]
  apply BinaryFloat.ofRat_of_ne_zero
  exact_mod_cast hne

/-- A text is read as the whole number that it spells, or as the nearest one. -/
theorem Numeric.parse?_text_or (d : Decimal) :
    (d.scale = 0 ∧ parse? d.text = some (integral d.truncate)) ∨
      (parse? d.text = some (fractional d.nearest) ∧ (d.scale = 0 → d.toDouble = d.nearest)) := by
  rw [parse?_text]
  split
  · rename_i hrange
    exact .inl ⟨hrange.1, rfl⟩
  · rename_i hrange
    refine .inr ⟨rfl, fun hs => ?_⟩
    have hne : d.truncate ≠ 0 := by
      intro hzero
      apply hrange
      rw [hzero]
      exact ⟨hs, by decide, by decide⟩
    rw [Decimal.toDouble_of_scale hs, Decimal.nearest_of_scale hs hne]

/-- The number that a text is read as is converted as the decimal one is. -/
theorem Numeric.toDouble?_text (h : d.scale = 0 ∨ d.toDouble = d.nearest) {n : Numeric}
    (hn : parse? d.text = some n) : n.toDouble? = (exact d).toDouble? := by
  rcases parse?_text_or d with ⟨hs, hread⟩ | ⟨hread, hwhole⟩
  · obtain rfl := Option.some.inj (hn.symm.trans hread)
    rw [toDouble?, toDouble?, Decimal.toDouble_of_scale hs]
  · obtain rfl := Option.some.inj (hn.symm.trans hread)
    rw [toDouble?, toDouble?, h.elim hwhole id]

/-- The number that a text is read as is narrowed as the decimal one is. -/
theorem Numeric.toSingle?_text
    (h : d.scale = 0 ∨ (d.toDouble.convert : Single) = d.nearest.convert) {n : Numeric}
    (hn : parse? d.text = some n) {y : Single} (hy : (exact d).toSingle? = some y) :
    n.toSingle? = some y := by
  rcases parse?_text_or d with ⟨hs, hread⟩ | ⟨hread, hwhole⟩
  · rw [toSingle?, toDouble?_text (.inl hs) hn]
    exact hy
  · obtain rfl := Option.some.inj (hn.symm.trans hread)
    obtain ⟨x, hx, hconvert, hfinite⟩ := toSingle?_eq_some.1 hy
    obtain ⟨rfl, -⟩ := toDouble?_exact.1 hx
    have hnearest : (d.nearest.convert : Single) = y := by
      rcases h with hs | h
      · rw [← hwhole hs, hconvert]
      · rw [← h, hconvert]
    have hsource : d.nearest.isFinite := by
      apply BinaryFloat.isFinite_of_convert (G := .single)
      rw [hnearest]
      exact hfinite
    exact toSingle?_of_convert hsource hfinite hnearest

/-- The number that a text is read as has the whole part of the decimal one, where that fits. -/
theorem Numeric.toInt?_text (h : d.scale = 0 ∨ d.nearest.truncate? = some d.truncate) {bits : Nat}
    (hbits : bits ≤ 64) {i : Int} (hi : (exact d).toInt? bits = some i) {n : Numeric}
    (hn : Numeric.parse? d.text = some n) : n.toInt? bits = some i := by
  obtain ⟨hvalue, hlow, hhigh⟩ := toInt?_eq_some.1 hi
  obtain rfl := Option.some.inj hvalue
  have hrange : -2 ^ 63 ≤ d.truncate ∧ d.truncate < 2 ^ 63 := by
    have hlimit : (2 : Int) ^ (bits - 1) ≤ 2 ^ 63 := pow_le_pow_right₀ (by decide) (by omega)
    omega
  have hwhole : n.truncate? = some d.truncate := by
    rw [Numeric.parse?_text] at hn
    obtain rfl := Option.some.inj hn
    split
    · rfl
    · rename_i hnot
      exact h.resolve_left fun hs => hnot ⟨hs, hrange⟩
  exact toInt?_eq_some.2 ⟨hwhole, hlow, hhigh⟩

/-! ## When the conversion leads to the nearest number -/

theorem Decimal.toDouble_eq_nearest_or
    (h : d.coefficient % 10 ^ d.scale = 0 ∨ d.coefficient < 2 ^ 51 ∧ d.scale ≤ 22) :
    d.scale = 0 ∨ d.toDouble = d.nearest := by
  refine or_iff_not_imp_left.2 fun hs => ?_
  rcases h with hmod | ⟨hcoefficient, hscale⟩
  · exact toDouble_of_mod_eq_zero hs hmod
  · exact toDouble_of_coefficient_lt hs hcoefficient hscale

/-- What is not next to a midpoint of single precision is narrowed as the nearest number is. -/
theorem Decimal.convert_toDouble_eq_or
    (h : ∀ c, |d.toRat| < 2 ^ 48 * |(|d.toRat| - FloatFormat.single.midpoint c)|) :
    d.scale = 0 ∨ (d.toDouble.convert : Single) = d.nearest.convert := by
  by_cases hmod : d.coefficient % 10 ^ d.scale = 0
  · refine (toDouble_eq_nearest_or (.inl hmod)).imp_right fun hsame => ?_
    rw [hsame]
  · exact .inr (convert_toDouble hmod h)

end ColumnIndex
