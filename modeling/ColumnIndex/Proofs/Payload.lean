import ColumnIndex.Mapper
import ColumnIndex.Proofs.Outcome

/-!
# Payloads of values

What is known of a payload without looking into its mapper: only an empty value has none, the
column it comes from matters for points alone, and the payload of texts in terms is a text.
-/
namespace ColumnIndex

open Outcome

/-- The payload of a text is its canonical form. -/
theorem MapperKind.coerce_text {analyzer : Option Analyzer} {v : Value} {base : FieldValue}
    (h : (MapperKind.text analyzer).coerce v = .ok base) : ∃ text, base = .str text := by
  unfold coerce at h
  cases hv : v.canonical? with
  | none => simp [hv] at h
  | some text => exact ⟨text, by simpa [hv] using h.symm⟩

/-- The payload of a scalar value, if it has one. -/
def MapperKind.payload? (k : MapperKind) (v : Value) : Option FieldValue :=
  match k with
  | integer => ((Numeric.ofValue? v).bind (Numeric.toInt? 32)).map (.int ∘ Int32.ofInt)
  | long => ((Numeric.ofValue? v).bind (Numeric.toInt? 64)).map (.long ∘ Int64.ofInt)
  | float => ((Numeric.ofValue? v).bind Numeric.toSingle?).map .float
  | double => ((Numeric.ofValue? v).bind Numeric.toDouble?).map .double
  | bigDecimal whole fraction =>
    (v.toDecimal?.bind fun d => (d.sortable whole.toNat fraction.toNat).toOption).map .str
  | string caseSensitive =>
    v.canonical?.map fun s => .str (if caseSensitive then s else Text.lowercase s)
  | text _ => v.canonical?.map .str
  | boolean => v.toBool?.map fun b => .str (if b then "true" else "false")
  | date pattern => (v.toMillis? pattern).map (.long ∘ Int64.ofInt)
  | blob => v.toHex?.map .str
  | inet => v.toAddress?.map fun a => .str a.text
  | uuid => v.toUuid?.map fun u => .str u.text
  | geoPoint .. => none

theorem orRejected_eq_ok {o : Option FieldValue} {cause : CoercionCause} {base : FieldValue} :
    (match o with
      | some b => .ok b
      | none => .error cause : Except CoercionCause FieldValue) = .ok base ↔ o = some base := by
  cases o with
  | none => simp
  | some b => simp

/-- A value is accepted where it has a payload. -/
theorem MapperKind.coerce_eq_ok {k : MapperKind} {v : Value} {base : FieldValue} :
    k.coerce v = .ok base ↔ k.payload? v = some base := by
  cases k with
  | bigDecimal whole fraction =>
    simp only [coerce, payload?]
    cases v.toDecimal? with
    | none => simp
    | some d =>
      simp only [Option.bind_some]
      cases d.sortable whole.toNat fraction.toNat with
      | ok s => simp [Except.toOption]
      | error fault => simp [Except.toOption]
  | geoPoint latitude longitude levels => simp [coerce, payload?]
  | _ => exact orRejected_eq_ok

namespace Mapper

variable {m : Mapper} {column : String} {v : Value}

/-- A single value is coerced as the kind of its mapper says. -/
theorem coerce_eq_of_scalar (hm : m.tag.isSpatial = false) (hv : v.isScalar) :
    m.coerce column v = ((m.kind.coerce v).map some).mapError (m.fault column) := by
  obtain ⟨field, own, indexed, sorted, boost, kind⟩ := m
  have hkind : ∀ latitude longitude levels, kind ≠ .geoPoint latitude longitude levels := by
    rintro latitude longitude levels rfl
    exact absurd hm (by simp [tag, MapperKind.tag, MapperTag.isSpatial, MapperTag.family])
  cases v <;> cases kind <;> simp_all [coerce, Value.isScalar, Value.isNull, Value.isList]

/-- A value with a payload is a single one. -/
theorem isScalar_of_coerce {base : FieldValue} (h : m.coerce column v = .ok (some base)) :
    v.isScalar := by
  cases v <;> simp_all [coerce, Value.isScalar, Value.isNull, Value.isList]

/-- Only an empty value has no payload. -/
theorem coerce_eq_none : m.coerce column v = .ok none ↔ v = .null := by
  constructor
  · intro h
    cases v <;> simp_all [coerce, mapError_eq_ok, map_eq_ok]
  · rintro rfl
    rfl

/-- A payload of a mapper that has none of points is that of its kind. -/
theorem coerce_eq_some (hm : m.tag.isSpatial = false) {base : FieldValue} :
    m.coerce column v = .ok (some base) ↔ v.isScalar ∧ m.kind.coerce v = .ok base := by
  constructor
  · intro h
    have hv := isScalar_of_coerce h
    rw [coerce_eq_of_scalar hm hv, mapError_eq_ok, map_eq_ok] at h
    obtain ⟨b, hb, hsome⟩ := h
    cases hsome
    exact ⟨hv, hb⟩
  · rintro ⟨hv, hb⟩
    rw [coerce_eq_of_scalar hm hv, mapError_eq_ok, map_eq_ok]
    exact ⟨base, hb, rfl⟩

/-- The kind of a mapper with an analyzer. -/
theorem kind_of_analyzer? {analyzer : Analyzer} (h : m.analyzer? = some analyzer) :
    ∃ own : Option Analyzer, m.kind = .text own ∧ own.getD .standard = analyzer := by
  unfold analyzer? at h
  split at h
  · rename_i own hkind
    exact ⟨own, hkind, by simpa using h⟩
  · contradiction

theorem isSpatial_of_analyzer? {analyzer : Analyzer} (h : m.analyzer? = some analyzer) :
    m.tag.isSpatial = false := by
  obtain ⟨own, hkind, -⟩ := kind_of_analyzer? h
  simp [tag, hkind, MapperKind.tag, MapperTag.isSpatial, MapperTag.family]

/-- The payloads of a field in terms are texts. -/
theorem coerce_of_analyzer? {analyzer : Analyzer} (h : m.analyzer? = some analyzer)
    {base : FieldValue} (hbase : m.coerce column v = .ok (some base)) :
    ∃ text, base = .str text := by
  obtain ⟨own, hkind, -⟩ := kind_of_analyzer? h
  have hcoerce := ((coerce_eq_some (isSpatial_of_analyzer? h)).1 hbase).2
  rw [hkind] at hcoerce
  exact MapperKind.coerce_text hcoerce

end Mapper

end ColumnIndex
