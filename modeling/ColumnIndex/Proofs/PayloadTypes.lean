import ColumnIndex.Proofs.Payload

/-!
# Types of payloads

All payloads of a mapper have one type, which follows from the kind of the mapper. So do the kind
of the fields to search in, the way in which payloads are kept for sorting, and how the engine
compares them.

## Main definitions

* `PayloadType`, `FieldValue.type` — the types.
* `MapperTag.payloadType`, `SortKind.payloadType` — the type that belongs to a kind.
* `MapperKind.fieldKind` — the kind of the fields to search in.
* `MapperTag.docValues` — how payloads are kept for sorting.

Main statements: `Mapper.type_of_coerce`, `Mapper.indexedField_of_type`,
`Mapper.sortedField_of_type`.
-/
namespace ColumnIndex

open Outcome

/-! ## Types -/

/-- The types of payloads. -/
inductive PayloadType
  | int
  | long
  | float
  | double
  | str
  | point
  deriving DecidableEq

/-- The type of a payload. -/
def FieldValue.type : FieldValue → PayloadType
  | int _ => .int
  | long _ => .long
  | float _ => .float
  | double _ => .double
  | str _ => .str
  | geoPoint .. => .point

/-- The type of the payloads of a mapper. -/
def MapperTag.payloadType : MapperTag → PayloadType
  | integer => .int
  | long | date => .long
  | float => .float
  | double => .double
  | bigDecimal | string | text | boolean | blob | inet | uuid => .str
  | geoPoint => .point

/-- The type of the payloads that the engine compares. -/
def SortKind.payloadType : SortKind → PayloadType
  | int => .int
  | long => .long
  | float => .float
  | double => .double
  | string => .str

/-- The kind of the fields to search in. -/
def MapperKind.fieldKind : MapperKind → FieldKind
  | integer => .intPoint
  | long | date _ => .longPoint
  | float => .floatPoint
  | double => .doublePoint
  | text analyzer => .text (analyzer.getD .standard).name
  | geoPoint .. => .latLonPoint
  | bigDecimal .. | string _ | boolean | blob | inet | uuid => .keyword

/-- How payloads are kept for sorting: texts or numbers, one or many for a document. -/
def MapperTag.docValues (t : MapperTag) (many : Bool) : DocValues :=
  match t.payloadType, many with
  | .str, false => .sorted
  | .str, true => .sortedSet
  | _, false => .numeric
  | _, true => .sortedNumeric

/-- The engine compares payloads of the type that the mapper has. -/
theorem MapperTag.payloadType_of_sort? {t : MapperTag} {kind : SortKind}
    (h : t.sort? = some kind) : kind.payloadType = t.payloadType := by
  cases t <;> cases h <;> rfl

/-- A scalar value is read as a payload of the type of its mapper. -/
theorem MapperKind.type_of_coerce {k : MapperKind} {v : Value} {base : FieldValue}
    (h : k.coerce v = .ok base) : base.type = k.tag.payloadType := by
  rw [coerce_eq_ok] at h
  cases k with
  | geoPoint latitude longitude levels => cases h
  | _ =>
    obtain ⟨x, -, rfl⟩ := Option.map_eq_some_iff.1 h
    rfl

/-- A value that is read as a coordinate is a number in the range. -/
theorem MapperKind.exists_of_coordinate {isLatitude : Bool} {v : Value} {base : FieldValue}
    (h : coordinate isLatitude v = .ok base) :
    ∃ x, base = .double x ∧ if isLatitude then Geo.isLatitude x else Geo.isLongitude x := by
  unfold coordinate at h
  split at h
  · cases h
  · rename_i x _
    obtain ⟨hx, rfl⟩ := ite_ok_eq_ok.1 h
    exact ⟨x, rfl, by simpa using hx⟩

theorem MapperKind.cause_ne_payload_of_coordinate {isLatitude : Bool} {v : Value}
    {cause : CoercionCause} (h : coordinate isLatitude v = .error cause) (base : FieldValue) :
    cause ≠ .payload base := by
  unfold coordinate at h
  split at h
  · cases h
    simp
  · obtain ⟨-, rfl⟩ := ite_ok_eq_error.1 h
    simp

theorem orRejected_eq_error {o : Option FieldValue} {cause cause' : CoercionCause} :
    (match o with
      | some b => .ok b
      | none => .error cause : Except CoercionCause FieldValue) = .error cause' ↔
      o = none ∧ cause = cause' := by
  cases o with
  | none => simp
  | some b => simp

/-- A value is rejected for what it is, and not for its payload. -/
theorem MapperKind.cause_ne_payload_of_coerce {k : MapperKind} {v : Value} {cause : CoercionCause}
    (h : k.coerce v = .error cause) (base : FieldValue) : cause ≠ .payload base := by
  cases k with
  | bigDecimal whole fraction =>
    simp only [coerce] at h
    split at h
    · cases h
      simp
    · split at h
      · cases h
      · cases h
        simp
  | geoPoint latitude longitude levels =>
    cases h
    simp
  | _ =>
    rw [← (orRejected_eq_error.1 h).2]
    simp

namespace Mapper

variable {m : Mapper} {column name : String} {v : Value} {base : FieldValue}

/-- The payload of a value has the type of the mapper. -/
theorem type_of_coerce (hm : m.tag.isSpatial = false) (h : m.coerce column v = .ok (some base)) :
    base.type = m.tag.payloadType :=
  MapperKind.type_of_coerce ((coerce_eq_some hm).1 h).2

/-! ## Fields of a payload -/

/-- A payload of the right type has a field to search in. -/
theorem fieldKind?_of_type (h : base.type = m.tag.payloadType) :
    m.fieldKind? base = some m.kind.fieldKind := by
  obtain ⟨field, own, indexed, sorted, boost, kind⟩ := m
  cases kind <;> cases base <;> first | contradiction | rfl

theorem indexedField_of_type (h : base.type = m.tag.payloadType) :
    m.indexedField name base =
      .ok (if m.indexed then some ⟨name, base, m.kind.fieldKind, false, m.boost⟩ else none) := by
  rw [indexedField, fieldKind?_of_type h]
  split <;> rfl

/-- A payload of the right type can be kept for sorting, if the engine sorts by such payloads. -/
theorem docValues?_of_type (h : base.type = m.tag.payloadType) (hsort : m.tag.sort? ≠ none) :
    ∃ single, m.tag.docValues? = some single ∧
      (if single.isNumeric then base.isNumeric else base.asText?.isSome) ∧
        ∀ many : Bool, (if many then single.multiValued else single) = m.tag.docValues many := by
  generalize m.tag = t at h hsort
  cases t <;> cases base <;>
    first
      | contradiction
      | exact ⟨_, rfl, rfl, fun many => by cases many <;> rfl⟩

theorem sortedField_of_type (h : base.type = m.tag.payloadType)
    (hsort : m.sorted → m.tag.sort? ≠ none) (many : Bool) :
    m.sortedField name base many =
      .ok (if m.sorted then
          some ⟨name, base, .docValues (m.tag.docValues many), false, defaultBoost⟩
        else none) := by
  unfold sortedField
  split
  · rename_i hsorted
    obtain ⟨single, hsingle, hmatches, hmany⟩ := docValues?_of_type h (hsort hsorted)
    rw [hsingle]
    simp only [hmatches, hmany, if_true]
    rfl
  · rfl

end Mapper

end ColumnIndex
