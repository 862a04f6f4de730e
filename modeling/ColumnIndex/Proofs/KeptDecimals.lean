import ColumnIndex.Proofs.Number.RoundedTexts
import ColumnIndex.Proofs.Number.SortableTexts
import ColumnIndex.Proofs.WholeParts

/-!
# Decimal numbers that are kept

A mapper of decimal numbers keeps a number as its sortable text, and refuses it if it has more
digits than the limits say. A text is rounded before its digits are counted, so the text that is
kept stands for another number wherever no decimal number is the one that is denoted, and digits
that are rounded off do not count.

## Main definitions

* `Mapper.Sorts` — a mapper answers a value with the sortable text of a number.

Main statement: `Mapper.base_decimal_text`.
-/
namespace ColumnIndex.Mapper

open Outcome

/-- The mapper answers a value in a column with a sortable text that stands for the number, if its
digits are within the limits, and refuses the value otherwise, or if there is no number. -/
structure Sorts (m : Mapper) (column : String) (v : Value) (wholeLimit fractionLimit : Nat)
    (q? : Option Rat) : Prop where
  accepts : ∀ q whole fraction, q? = some q → HasDigits q whole fraction →
    whole ≤ wholeLimit → fraction ≤ fractionLimit →
      ∃ s, Decimal.sorted? s = some q ∧ (m.base column v).result = .ok (some (.str s))
  refuses : (∀ q whole fraction, q? = some q → HasDigits q whole fraction →
    ¬ (whole ≤ wholeLimit ∧ fraction ≤ fractionLimit)) →
      ∃ e, (m.base column v).result = .error e ∧ e.errorClass = .coercion

variable {m : Mapper} {column : String} {v : Value} {wholeLimit fractionLimit : UInt32}

theorem isSpatial_of_bigDecimal (hm : m.kind = .bigDecimal wholeLimit fractionLimit) :
    m.tag.isSpatial = false := by
  rw [tag, hm]
  rfl

/-- The payload of a decimal number is its sortable text. -/
theorem payload?_of_bigDecimal (hm : m.kind = .bigDecimal wholeLimit fractionLimit)
    {base : FieldValue} :
    m.kind.payload? v = some base ↔ ∃ d s, v.toDecimal? = some d ∧
      d.sortable wholeLimit.toNat fractionLimit.toNat = .ok s ∧ base = .str s := by
  rw [hm, MapperKind.payload?, sortableText_eq_some]

theorem base_eq_ok_of_bigDecimal (hm : m.kind = .bigDecimal wholeLimit fractionLimit)
    (hv : v.isScalar) {base : FieldValue} :
    (m.base column v).result = .ok (some base) ↔ ∃ d s, v.toDecimal? = some d ∧
      d.sortable wholeLimit.toNat fractionLimit.toNat = .ok s ∧ base = .str s := by
  rw [base_eq_ok_some (isSpatial_of_bigDecimal hm), payload?_of_bigDecimal hm]
  exact and_iff_right hv

/-- A value is answered with the text of the number that it is read as. -/
theorem sorts_of_read (hm : m.kind = .bigDecimal wholeLimit fractionLimit) (column : String)
    (hv : v.isScalar) :
    m.Sorts column v wholeLimit.toNat fractionLimit.toNat (v.toDecimal?.map Decimal.toRat) := by
  constructor
  · intro q whole fraction hq hdigits hwhole hfraction
    obtain ⟨d, hd, rfl⟩ := Option.map_eq_some_iff.1 hq
    obtain ⟨s, hs⟩ := (Decimal.exists_sortable_iff hdigits).2 ⟨hwhole, hfraction⟩
    refine ⟨s, Decimal.sorted?_of_sortable hs, ?_⟩
    exact (base_eq_ok_of_bigDecimal hm hv).2 ⟨d, s, hd, hs, rfl⟩
  · intro hlimits
    apply exists_base_error (isSpatial_of_bigDecimal hm) hv
    rw [Option.eq_none_iff_forall_ne_some]
    intro base hbase
    obtain ⟨d, s, hd, hs, -⟩ := (payload?_of_bigDecimal hm).1 hbase
    have hdigits := d.hasDigits_normalize
    refine hlimits _ _ _ ?_ hdigits ((Decimal.exists_sortable_iff hdigits).1 ⟨s, hs⟩)
    rw [hd, Option.map_some]

/-- A mapper of decimal numbers answers a plain decimal text with the text of the number that it is
rounded to. What is answered is exact where a decimal number is what the text denotes, and is
changed by at most half a unit of the last place that is kept where none is. Only a whole part that
does not fit is not rounded. -/
theorem base_decimal_text (hm : m.kind = .bigDecimal wholeLimit fractionLimit) (column : String)
    {text : String} {p : PlainDecimal} (h : p.IsSpelledBy text) :
    m.Sorts column (.text text) wholeLimit.toNat fractionLimit.toNat
        (p.rounded?.map Decimal.toRat) ∧
      ((∃ e : Decimal, e.toRat = p.toRat) →
        m.Sorts column (.text text) wholeLimit.toNat fractionLimit.toNat (some p.toRat)) ∧
      (∀ base, (m.base column (.text text)).result = .ok base →
        ∃ s d, base = some (.str s) ∧ p.rounded? = some d ∧ Decimal.sorted? s = some d.toRat ∧
          |d.toRat - p.toRat| * 10 ^ d.scale ≤ 1 / 2 ∧
          (d.toRat = p.toRat ↔ ∃ e : Decimal, e.toRat = p.toRat)) ∧
      (p.rounded? = none ↔ 2 ^ 96 ≤ p.magnitude + 1 / 2) := by
  have hread : (Value.text text).toDecimal? = p.rounded? := p.parse?_decimal h
  have hsorts := sorts_of_read (v := .text text) hm column rfl
  rw [hread] at hsorts
  refine ⟨hsorts, ?_, ?_, p.rounded?_eq_none_iff⟩
  · rintro ⟨e, he⟩
    obtain ⟨d, hd, hvalue⟩ := p.exists_rounded?_of_decimal he
    rwa [hd, Option.map_some, hvalue] at hsorts
  · intro base hbase
    cases base with
    | none =>
      rw [base_eq_ok, coerce_eq_none] at hbase
      cases hbase
    | some base =>
      obtain ⟨d, s, hd, hs, rfl⟩ := (base_eq_ok_of_bigDecimal hm rfl).1 hbase
      rw [hread] at hd
      exact ⟨s, d, rfl, hd, Decimal.sorted?_of_sortable hs, p.abs_rounded_sub_le hd,
        p.toRat_rounded_iff hd⟩

/-- A mapper of decimal numbers with the limits that are taken where none are given. -/
def sampleAmount : Mapper := ⟨"amount", "amount", true, false, defaultBoost, .bigDecimal 32 32⟩

/-- All ninety-six bits, with three of the digits behind the point. -/
def sampleFullText : PlainDecimal where
  sign := .minus
  whole := "79228162514264337593543950".toList
  fraction := "335".toList
  whole_ne_nil := by decide
  isDigit_whole := List.all_eq_true.1 rfl
  isDigit_fraction := List.all_eq_true.1 rfl

/-- A full coefficient is kept as it is. -/
theorem base_decimal_text_full :
    sampleFullText.IsSpelledBy "-79228162514264337593543950.335" ∧
      sampleAmount.Sorts "amount" (.text "-79228162514264337593543950.335") 32 32
        (some sampleFullText.toRat) := by
  have hspelled : sampleFullText.IsSpelledBy "-79228162514264337593543950.335" :=
    ⟨[], [], by simp, rfl⟩
  let full : Decimal := ⟨true, 79228162514264337593543950335, 3, by decide, by decide⟩
  have hfull : full.toRat = sampleFullText.toRat := by decide +kernel
  obtain ⟨-, hsorts, -, -⟩ := base_decimal_text (m := sampleAmount) rfl "amount" hspelled
  exact ⟨hspelled, hsorts ⟨full, hfull⟩⟩

/-- One digit more than there may be behind the point. -/
def sampleTinyText : PlainDecimal where
  sign := .absent
  whole := "0".toList
  fraction := "00000000000000000000000000001".toList
  whole_ne_nil := by decide
  isDigit_whole := List.all_eq_true.1 rfl
  isDigit_fraction := List.all_eq_true.1 rfl

/-- A number that is not zero is answered with zero, and by a mapper that has fewer digits too. -/
theorem base_decimal_text_rounds :
    sampleTinyText.IsSpelledBy "0.00000000000000000000000000001" ∧ sampleTinyText.toRat ≠ 0 ∧
      (sampleAmount.base "amount" (.text "0.00000000000000000000000000001")).result
        = .ok (some (.str "100000000000000000000000000000000.00000000000000000000000000000000")) ∧
      Decimal.sorted? "100000000000000000000000000000000.00000000000000000000000000000000"
        = some 0 ∧
      (sampleShare.base "share" (.text "0.00000000000000000000000000001")).result
        = .ok (some (.str "100.0000000000000000")) ∧
      Decimal.sorted? "100.0000000000000000" = some 0 := by
  have hread : (Value.text "0.00000000000000000000000000001").toDecimal?
      = some ⟨false, 0, 28, by decide, by decide⟩ := by decide +kernel
  refine ⟨⟨[], [], by simp, rfl⟩, by decide +kernel, ?_, by decide +kernel, ?_, by decide +kernel⟩
  · exact (base_eq_ok_of_bigDecimal rfl rfl).2 ⟨_, _, hread, rfl, rfl⟩
  · exact (base_eq_ok_of_bigDecimal rfl rfl).2 ⟨_, _, hread, rfl, rfl⟩

end ColumnIndex.Mapper
