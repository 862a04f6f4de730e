import ColumnIndex.Proofs.NumericLiterals

/-!
# Whole parts of numbers

A mapper of whole numbers keeps the whole part of a number, which is the whole number next to it on
the side of zero. Whether it does depends on that whole part alone, and not on the form in which
the number comes.

## Main definitions

* `wholePart` — the whole part of a rational number.
* `Value.toRat?` — the rational number that a value is.
* `Mapper.Truncates` — a mapper answers a value with the whole part of a number.

Main statement: `Mapper.base_number_truncates`.
-/
namespace ColumnIndex

open Outcome

/-! ## Whole parts -/

/-- The whole number next to a rational one on the side of zero. -/
def wholePart (q : Rat) : Int := if 0 ≤ q then ⌊q⌋ else ⌈q⌉

theorem wholePart_neg (q : Rat) : wholePart (-q) = -wholePart q := by
  unfold wholePart
  rcases lt_trichotomy q 0 with h | rfl | h
  · rw [if_pos (by linarith), if_neg (by linarith), Int.floor_neg]
  · simp
  · rw [if_neg (by linarith), if_pos (by linarith), Int.ceil_neg]

/-- Cutting off the fraction leaves the whole part. -/
theorem truncate_eq_wholePart (q : Rat) : truncate q = wholePart q := by
  rcases le_total 0 q with h | h
  · rw [truncate_of_nonneg h, wholePart, if_pos h]
  · have hneg : 0 ≤ -q := by linarith
    have h := truncate_of_nonneg hneg
    rw [truncate_neg] at h
    rw [← neg_neg (truncate q), h, ← neg_neg (wholePart q), ← wholePart_neg, wholePart, if_pos hneg]

/-- Of two numbers the lesser one has no greater whole part. -/
theorem wholePart_mono {q r : Rat} (h : q ≤ r) : wholePart q ≤ wholePart r := by
  unfold wholePart
  split
  · rename_i hq
    rw [if_pos (hq.trans h)]
    exact Int.floor_mono h
  · rename_i hq
    split
    · rename_i hr
      have hlow : ⌈q⌉ ≤ 0 := Int.ceil_le.2 (by push_cast; linarith)
      have hhigh : 0 ≤ ⌊r⌋ := Int.floor_nonneg.2 hr
      exact hlow.trans hhigh
    · exact Int.ceil_mono h

/-! ## The numbers of values -/

/-- The rational number that a value is, if it is a finite number. -/
def Value.toRat? : Value → Option Rat
  | .int i => some i.toInt
  | .long i => some i.toInt
  | .float x => x.toRat?
  | .double x => x.toRat?
  | .decimal d => some d.toRat
  | _ => none

/-- The rational number that was read, if it is finite. -/
def Numeric.toRat? : Numeric → Option Rat
  | integral i => some i
  | fractional x => x.toRat?
  | exact d => some d.toRat

theorem Decimal.truncate_eq (d : Decimal) : d.truncate = ColumnIndex.truncate d.toRat := by
  have hquotient : ColumnIndex.truncate (d.coefficient / 10 ^ d.scale)
      = (d.coefficient / 10 ^ d.scale : Nat) := by
    rw [truncate_of_nonneg (by positivity), floor_div_pow]
  rw [toRat_eq_signed, truncate_signed, hquotient, truncate]

theorem Numeric.truncate?_eq (n : Numeric) : n.truncate? = n.toRat?.map wholePart := by
  cases n with
  | integral i => simp [truncate?, toRat?, wholePart]
  | fractional x =>
    rw [truncate?, toRat?, BinaryFloat.truncate?]
    exact congrArg (fun f => x.toRat?.map f) (funext truncate_eq_wholePart)
  | exact d => rw [truncate?, toRat?, Option.map_some, Decimal.truncate_eq, truncate_eq_wholePart]

/-- A value that is a number is read as that number. -/
theorem Value.ofValue?_toRat? {v : Value} (hv : v.isNumeric) :
    (Numeric.ofValue? v).bind Numeric.toRat? = v.toRat? := by
  cases v with
  | float x =>
    rw [Numeric.ofValue?, Option.bind_some, Numeric.toRat?, toRat?, BinaryFloat.toRat?,
      BinaryFloat.toRat?]
    cases hx : x.isFinite with
    | true =>
      obtain ⟨hfinite, -, hvalue⟩ := BinaryFloat.convert_spec hx
      rw [if_pos hfinite, if_pos rfl, hvalue]
    | false =>
      have hconvert : ¬ (x.convert : Double).isFinite := by
        intro h
        rw [BinaryFloat.isFinite_of_convert h] at hx
        cases hx
      rw [if_neg hconvert, if_neg Bool.false_ne_true]
  | int | long | double | decimal => rfl
  | _ => exact absurd hv Bool.false_ne_true

/-! ## Mappers of whole numbers -/

/-- The whole numbers that a mapper of the kind has payloads for. -/
def MapperTag.wholeRange : MapperTag → Set Int
  | .integer => {n | -2 ^ 31 ≤ n ∧ n ≤ 2 ^ 31 - 1}
  | .long => {n | -2 ^ 63 ≤ n ∧ n ≤ 2 ^ 63 - 1}
  | _ => ∅

/-- The payload in which a mapper of the kind keeps a whole number. -/
inductive IsWholePayload : MapperTag → Int → FieldValue → Prop
  | int (i : Int32) : IsWholePayload .integer i.toInt (.int i)
  | long (i : Int64) : IsWholePayload .long i.toInt (.long i)

/-- A payload keeps one number. -/
theorem IsWholePayload.unique {t : MapperTag} {n n' : Int} {base : FieldValue}
    (h : IsWholePayload t n base) (h' : IsWholePayload t n' base) : n = n' := by
  cases h with
  | int i => cases h'; rfl
  | long i => cases h'; rfl

/-- A number in range has the payload that is read as it. -/
theorem MapperKind.exists_ofNumber? {k : MapperKind} (hk : k.tag ∈ wholeTags) {n : Numeric}
    {i : Int} (hn : n.truncate? = some i) (hi : i ∈ k.tag.wholeRange) :
    ∃ base, IsWholePayload k.tag i base ∧ k.ofNumber? n = some base := by
  cases k with
  | integer =>
    obtain ⟨hlow, hhigh⟩ : -2 ^ 31 ≤ i ∧ i ≤ 2 ^ 31 - 1 := hi
    have hfits : n.toInt? 32 = some i := by
      rw [Numeric.toInt?, hn, Option.filter_some_pos]
      simpa using ⟨hlow, by omega⟩
    have hvalue : (Int32.ofInt i).toInt = i := Int32.toInt_ofInt_of_le hlow (by omega)
    refine ⟨.int (Int32.ofInt i), ?_, by rw [ofNumber?, hfits]; rfl⟩
    have h := IsWholePayload.int (Int32.ofInt i)
    rwa [hvalue] at h
  | long =>
    obtain ⟨hlow, hhigh⟩ : -2 ^ 63 ≤ i ∧ i ≤ 2 ^ 63 - 1 := hi
    have hfits : n.toInt? 64 = some i := by
      rw [Numeric.toInt?, hn, Option.filter_some_pos]
      simpa using ⟨hlow, by omega⟩
    have hvalue : (Int64.ofInt i).toInt = i := Int64.toInt_ofInt_of_le hlow (by omega)
    refine ⟨.long (Int64.ofInt i), ?_, by rw [ofNumber?, hfits]; rfl⟩
    have h := IsWholePayload.long (Int64.ofInt i)
    rwa [hvalue] at h
  | _ => simp [wholeTags, tag] at hk

/-- A number out of range has no payload. -/
theorem MapperKind.ofNumber?_eq_none {k : MapperKind} (hk : k.tag ∈ wholeTags) {n : Numeric}
    (hn : ∀ i, n.truncate? = some i → i ∉ k.tag.wholeRange) : k.ofNumber? n = none := by
  cases k with
  | integer =>
    have hnone : n.toInt? 32 = none := by
      rw [Numeric.toInt?, Option.filter_eq_none_iff]
      intro i hi hfits
      simp only [Bool.and_eq_true, decide_eq_true_eq] at hfits
      exact hn i hi ⟨hfits.1, Int.le_sub_one_of_lt hfits.2⟩
    rw [ofNumber?, hnone, Option.map_none]
  | long =>
    have hnone : n.toInt? 64 = none := by
      rw [Numeric.toInt?, Option.filter_eq_none_iff]
      intro i hi hfits
      simp only [Bool.and_eq_true, decide_eq_true_eq] at hfits
      exact hn i hi ⟨hfits.1, Int.le_sub_one_of_lt hfits.2⟩
    rw [ofNumber?, hnone, Option.map_none]
  | _ => simp [wholeTags, tag] at hk

namespace Mapper

/-- The mapper answers a value in a column with the whole part of a number, if that is in range, and
refuses the value otherwise, or if there is no number. -/
structure Truncates (m : Mapper) (column : String) (v : Value) (q? : Option Rat) : Prop where
  accepts : ∀ q, q? = some q → wholePart q ∈ m.tag.wholeRange →
    ∃ base, IsWholePayload m.tag (wholePart q) base ∧ (m.base column v).result = .ok (some base)
  refuses : (∀ q, q? = some q → wholePart q ∉ m.tag.wholeRange) →
    ∃ e, (m.base column v).result = .error e ∧ e.errorClass = .coercion

variable {m : Mapper} {column : String} {v : Value} {q? : Option Rat}

/-- A payload is that of a whole part in range. -/
theorem Truncates.exists_of_base (h : m.Truncates column v q?) {base : FieldValue}
    (hbase : (m.base column v).result = .ok (some base)) :
    ∃ q, q? = some q ∧ wholePart q ∈ m.tag.wholeRange ∧
      IsWholePayload m.tag (wholePart q) base := by
  by_contra hnone
  have hrange : ∀ q, q? = some q → wholePart q ∉ m.tag.wholeRange := by
    intro q hq hrange
    obtain ⟨base', hwhole, hbase'⟩ := h.accepts q hq hrange
    obtain rfl := Option.some.inj (Except.ok.inj (hbase.symm.trans hbase'))
    exact hnone ⟨q, hq, hrange, hwhole⟩
  obtain ⟨e, he, -⟩ := h.refuses hrange
  rw [hbase] at he
  cases he

/-- A value without a payload is refused. -/
theorem exists_base_error (hm : m.tag.isSpatial = false) (hv : v.isScalar)
    (h : m.kind.payload? v = none) :
    ∃ e, (m.base column v).result = .error e ∧ e.errorClass = .coercion := by
  cases hresult : (m.base column v).result with
  | ok base =>
    exfalso
    cases base with
    | none =>
      rw [base_eq_ok, coerce_eq_none] at hresult
      rw [hresult] at hv
      cases hv
    | some base =>
      rw [base_eq_ok_some hm, h] at hresult
      cases hresult.2
  | error e =>
    obtain ⟨fault, -, rfl⟩ := mapError_eq_error.1 hresult
    exact ⟨_, rfl, rfl⟩

/-- A value is answered with the whole part of the number that it is read as. -/
theorem truncates_of_read (hm : m.tag ∈ wholeTags) (hv : v.isScalar)
    (hread : (Numeric.ofValue? v).bind Numeric.toRat? = q?) : m.Truncates column v q? := by
  have hnumber : m.tag ∈ numberTags := by
    have every : ∀ t ∈ wholeTags, t ∈ numberTags := by decide
    exact every _ hm
  have hbig : m.tag ≠ .bigDecimal := by
    have every : ∀ t ∈ wholeTags, t ≠ .bigDecimal := by decide
    exact every _ hm
  have hspatial := isSpatial_of_numberTags hnumber
  have hpayload : m.kind.payload? v = (Numeric.ofValue? v).bind m.kind.ofNumber? :=
    MapperKind.payload?_eq_ofNumber? hnumber (.inr hbig)
  constructor
  · intro q hq hrange
    rw [hq, Option.bind_eq_some_iff] at hread
    obtain ⟨n, hn, hvalue⟩ := hread
    have htruncate : n.truncate? = some (wholePart q) := by
      rw [Numeric.truncate?_eq, hvalue, Option.map_some]
    obtain ⟨base, hwhole, hbase⟩ := MapperKind.exists_ofNumber? hm htruncate hrange
    refine ⟨base, hwhole, (base_eq_ok_some hspatial).2 ⟨hv, ?_⟩⟩
    rw [hpayload, hn, Option.bind_some, hbase]
  · intro hrange
    apply exists_base_error hspatial hv
    rw [hpayload, Option.bind_eq_none_iff]
    intro n hn
    apply MapperKind.ofNumber?_eq_none hm
    intro i hi
    rw [Numeric.truncate?_eq, Option.map_eq_some_iff] at hi
    obtain ⟨q, hq, rfl⟩ := hi
    rw [hn, Option.bind_some] at hread
    exact hrange q (hread ▸ hq)

/-- A mapper of whole numbers answers a number of any kind with its whole part, if that is in range,
and refuses it otherwise. So the answers are in the order of the numbers, whatever their kinds. -/
theorem base_number_truncates (hm : m.tag ∈ wholeTags) (column : String) {v v' : Value}
    (hv : v.isNumeric) (hv' : v'.isNumeric) :
    m.Truncates column v v.toRat? ∧
      ∀ q q', v.toRat? = some q → v'.toRat? = some q' → q ≤ q' →
        ∀ n n' base base', (m.base column v).result = .ok (some base) →
          (m.base column v').result = .ok (some base') →
            IsWholePayload m.tag n base → IsWholePayload m.tag n' base' → n ≤ n' := by
  have hscalar : ∀ w : Value, w.isNumeric → w.isScalar := by
    intro w hw
    cases w <;> first | rfl | exact absurd hw Bool.false_ne_true
  have htruncates : ∀ w : Value, w.isNumeric → m.Truncates column w w.toRat? := fun w hw =>
    truncates_of_read hm (hscalar w hw) (Value.ofValue?_toRat? hw)
  refine ⟨htruncates v hv, ?_⟩
  intro q q' hq hq' hle n n' base base' hbase hbase' hn hn'
  obtain ⟨r, hr, -, hwhole⟩ := (htruncates v hv).exists_of_base hbase
  obtain ⟨r', hr', -, hwhole'⟩ := (htruncates v' hv').exists_of_base hbase'
  obtain rfl := Option.some.inj (hq.symm.trans hr)
  obtain rfl := Option.some.inj (hq'.symm.trans hr')
  rw [hn.unique hwhole, hn'.unique hwhole']
  exact wholePart_mono hle

/-- The least whole number of thirty-two bits, in single precision. -/
def sampleLeast : Value := .float (.ofBits 0xcf000000)

/-- Just below the first whole number that does not fit thirty-two bits. -/
def sampleMost : Value := .decimal ⟨false, 21474836479, 1, by decide, by decide⟩

/-- Both ends of the range are reached, in their order. -/
theorem base_number_truncates_ends :
    sampleStock.Truncates "stock" sampleLeast (some (-2147483648)) ∧
      (sampleStock.base "stock" sampleLeast).result = .ok (some (.int (-2147483648))) ∧
      (sampleStock.base "stock" sampleMost).result = .ok (some (.int 2147483647)) ∧
      (-2147483648 : Int32).toInt ≤ (2147483647 : Int32).toInt := by
  have hleast : sampleLeast.toRat? = some (-2147483648) := by decide +kernel
  have hmost : sampleMost.toRat? = some (21474836479 / 10) := by decide +kernel
  have hbase : (sampleStock.base "stock" sampleLeast).result
      = .ok (some (.int (-2147483648))) := by
    have hfits : (Numeric.fractional (.convert (.ofBits 0xcf000000 : Single))).toInt? 32
        = some (-2147483648) := by decide +kernel
    refine base_of_number (by decide) rfl (.inl rfl) rfl ?_
    rw [sampleStock, MapperKind.ofNumber?, hfits]
    rfl
  have hbase' : (sampleStock.base "stock" sampleMost).result = .ok (some (.int 2147483647)) := rfl
  have hnumeric : sampleLeast.isNumeric := rfl
  have hnumeric' : sampleMost.isNumeric := rfl
  obtain ⟨htruncates, hmono⟩ := base_number_truncates (m := sampleStock) (by decide) "stock"
    hnumeric hnumeric'
  exact ⟨hleast ▸ htruncates, hbase, hbase', hmono _ _ hleast hmost (by norm_num) _ _ _ _ hbase
    hbase' (.int _) (.int _)⟩

end Mapper

end ColumnIndex
