import ColumnIndex.Proofs.Number.FiniteWidening
import ColumnIndex.Proofs.Payload

/-!
# Payloads of numbers

A mapper of numbers reads a value as a number and narrows that. So its payload depends on the
number alone, and often on a part of the number.

Main statement: `MapperKind.payload?_eq_ofNumber?`.
-/
namespace ColumnIndex

/-- The kinds of mappers whose payloads are numbers, or texts in the order of numbers. -/
def numberTags : List MapperTag := [.integer, .long, .float, .double, .bigDecimal]

/-- The kinds of mappers that keep whole numbers. -/
def wholeTags : List MapperTag := [.integer, .long]

/-- The payload of a number, if a mapper of numbers has one for it. -/
def MapperKind.ofNumber? (k : MapperKind) (n : Numeric) : Option FieldValue :=
  match k with
  | integer => (n.toInt? 32).map (.int ∘ Int32.ofInt)
  | long => (n.toInt? 64).map (.long ∘ Int64.ofInt)
  | float => n.toSingle?.map .float
  | double => n.toDouble?.map .double
  | bigDecimal whole fraction =>
    (n.toDecimal?.bind fun d => (d.sortable whole.toNat fraction.toNat).toOption).map .str
  | _ => none

variable {k : MapperKind} {v : Value}

theorem Value.toDecimal?_of_asText? (h : v.asText? = none) :
    v.toDecimal? = (Numeric.ofValue? v).bind Numeric.toDecimal? := by
  cases v with
  | text s => cases h
  | _ => rfl

/-- A value is read as a number first, unless it is a text that spells a decimal number. -/
theorem MapperKind.payload?_eq_ofNumber? (hk : k.tag ∈ numberTags)
    (hv : v.asText? = none ∨ k.tag ≠ .bigDecimal) :
    k.payload? v = (Numeric.ofValue? v).bind k.ofNumber? := by
  cases k with
  | bigDecimal whole fraction =>
    have htext : v.asText? = none := hv.resolve_right fun h => h rfl
    rw [payload?, Value.toDecimal?_of_asText? htext]
    cases Numeric.ofValue? v with
    | none => rfl
    | some n => rfl
  | integer | long | float | double =>
    rw [payload?]
    cases Numeric.ofValue? v with
    | none => rfl
    | some n => rfl
  | _ => simp [numberTags, tag] at hk

/-- The payload of a decimal number is its sortable text. -/
theorem sortableText_eq_some {d? : Option Decimal} {whole fraction : Nat} {base : FieldValue} :
    (d?.bind fun d => (d.sortable whole fraction).toOption).map FieldValue.str = some base ↔
      ∃ d s, d? = some d ∧ d.sortable whole fraction = .ok s ∧ base = .str s := by
  rw [Option.map_eq_some_iff]
  constructor
  · rintro ⟨s, hs, rfl⟩
    obtain ⟨d, hd, hsortable⟩ := Option.bind_eq_some_iff.1 hs
    exact ⟨d, s, hd, Outcome.toOption_eq_some.1 hsortable, rfl⟩
  · rintro ⟨d, s, hd, hs, rfl⟩
    refine ⟨s, ?_, rfl⟩
    rw [hd, Option.bind_some, Outcome.toOption_eq_some, hs]

/-! ## Narrowing -/

namespace Numeric

theorem toDouble?_fractional {x : Double} (hx : x.isFinite) :
    (fractional x).toDouble? = some x := by
  rw [toDouble?, if_pos hx]

theorem toDouble?_exact {d : Decimal} {x : Double} :
    (exact d).toDouble? = some x ↔ d.toDouble = x ∧ x.isFinite := by
  rw [toDouble?]
  constructor
  · intro h
    split at h
    · rename_i hfinite
      obtain rfl := Option.some.inj h
      exact ⟨rfl, hfinite⟩
    · cases h
  · rintro ⟨rfl, hfinite⟩
    exact if_pos hfinite

/-- What is narrowed to single precision was in range before and is in range afterwards. -/
theorem toSingle?_eq_some {n : Numeric} {y : Single} :
    n.toSingle? = some y ↔ ∃ x, n.toDouble? = some x ∧ x.convert = y ∧ y.isFinite := by
  rw [toSingle?, Option.bind_eq_some_iff]
  refine exists_congr fun x => and_congr_right fun _ => ?_
  constructor
  · intro h
    dsimp only at h
    split at h
    · rename_i hfinite
      obtain rfl := Option.some.inj h
      exact ⟨rfl, hfinite⟩
    · cases h
  · rintro ⟨rfl, hfinite⟩
    exact if_pos hfinite

/-- The narrowed number of a finite one. -/
theorem toSingle?_of_convert {x : Double} (hx : x.isFinite) {y : Single} (hy : y.isFinite)
    (h : x.convert = y) : (fractional x).toSingle? = some y :=
  toSingle?_eq_some.2 ⟨x, toDouble?_fractional hx, h, hy⟩

end Numeric

/-- What is no finite number of double precision has no payload. -/
theorem MapperKind.ofNumber?_of_not_isFinite {x : Double} (hx : x.isFinite = false) :
    k.ofNumber? (.fractional x) = none := by
  have htruncate : ∀ bits, (Numeric.fractional x).toInt? bits = none := by
    intro bits
    rw [Numeric.toInt?, Numeric.truncate?, BinaryFloat.truncate?, BinaryFloat.toRat?, hx]
    rfl
  have hdouble : (Numeric.fractional x).toDouble? = none := by
    rw [Numeric.toDouble?, hx]
    rfl
  cases k with
  | integer => rw [ofNumber?, htruncate, Option.map_none]
  | long => rw [ofNumber?, htruncate, Option.map_none]
  | float => rw [ofNumber?, Numeric.toSingle?, hdouble, Option.bind_none, Option.map_none]
  | double => rw [ofNumber?, hdouble, Option.map_none]
  | bigDecimal whole fraction =>
    rw [ofNumber?, Numeric.toDecimal?, hx]
    rfl
  | _ => rfl

/-- A mapper of whole numbers asks only for the whole part. -/
theorem MapperKind.ofNumber?_of_truncate? (hk : k.tag ∈ wholeTags) {n n' : Numeric}
    (h : n.truncate? = n'.truncate?) : k.ofNumber? n = k.ofNumber? n' := by
  cases k with
  | integer => rw [ofNumber?, ofNumber?, Numeric.toInt?, Numeric.toInt?, h]
  | long => rw [ofNumber?, ofNumber?, Numeric.toInt?, Numeric.toInt?, h]
  | _ => simp [wholeTags, tag] at hk

theorem Numeric.toInt?_eq_some {bits : Nat} {n : Numeric} {i : Int} :
    n.toInt? bits = some i ↔
      n.truncate? = some i ∧ -2 ^ (bits - 1) ≤ i ∧ i < 2 ^ (bits - 1) := by
  rw [toInt?, Option.filter_eq_some_iff, Bool.and_eq_true, decide_eq_true_eq, decide_eq_true_eq]

/-- The payload of a whole number says which it is. -/
theorem MapperKind.truncate?_of_ofNumber? (hk : k.tag ∈ wholeTags) {n n' : Numeric}
    {base : FieldValue} (h : k.ofNumber? n = some base) (h' : k.ofNumber? n' = some base) :
    n.truncate? = n'.truncate? := by
  cases k with
  | integer =>
    obtain ⟨i, hi, rfl⟩ := Option.map_eq_some_iff.1 h
    obtain ⟨j, hj, hsame⟩ := Option.map_eq_some_iff.1 h'
    obtain ⟨htruncate, hlow, hhigh⟩ := Numeric.toInt?_eq_some.1 hi
    obtain ⟨htruncate', hlow', hhigh'⟩ := Numeric.toInt?_eq_some.1 hj
    have hvalue := congrArg Int32.toInt (FieldValue.int.inj hsame)
    rw [Int32.toInt_ofInt_of_le hlow' hhigh', Int32.toInt_ofInt_of_le hlow hhigh] at hvalue
    rw [htruncate, htruncate', hvalue]
  | long =>
    obtain ⟨i, hi, rfl⟩ := Option.map_eq_some_iff.1 h
    obtain ⟨j, hj, hsame⟩ := Option.map_eq_some_iff.1 h'
    obtain ⟨htruncate, hlow, hhigh⟩ := Numeric.toInt?_eq_some.1 hi
    obtain ⟨htruncate', hlow', hhigh'⟩ := Numeric.toInt?_eq_some.1 hj
    have hvalue := congrArg Int64.toInt (FieldValue.long.inj hsame)
    rw [Int64.toInt_ofInt_of_le hlow' hhigh', Int64.toInt_ofInt_of_le hlow hhigh] at hvalue
    rw [htruncate, htruncate', hvalue]
  | _ => simp [wholeTags, tag] at hk

end ColumnIndex
