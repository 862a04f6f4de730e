import ColumnIndex.Proofs.Geohash
import ColumnIndex.Proofs.MapperDrafts
import ColumnIndex.Proofs.MatchedRows
import ColumnIndex.Proofs.PayloadTypes

/-!
# Fields of a row

A built mapper makes fields of a row unless the row holds a value that the mapper rejects. The
payload of a value is always of the type that the mapper expects of it, so the checks of payloads
on the way to a field never fail.

## Main definitions

* `Value.present` — the values in a cell that are not empty.
* `Mapper.Refuses` — what a mapper finds wrong with a row.
* `Mapper.elementFields`, `Mapper.spatialFields` — the fields of a payload and of a point.
* `Mapper.Materializes` — what is known of the fields of a row.

Main statement: `Mapper.Draft.materializes_of_build`.
-/
namespace ColumnIndex

open Outcome

/-! ## Cells -/

/-- What stands in a cell: the items of a list, or the value itself. -/
def Value.elements : Value → List Value
  | list items => items
  | v => [v]

theorem Value.elements_of_isList {v : Value} (h : v.isList = false) : v.elements = [v] := by
  cases v <;> first | rfl | cases h

/-- The values in a cell that are not empty, in order. -/
def Value.present (cell : Value) : List Value := cell.elements.filter fun v => !v.isNull

namespace Mapper

/-! ## What is said of a row -/

/-- The value is a single one, and the mapper has no payload for it. -/
def Rejects (m : Mapper) (column : String) (v : Value) : Prop :=
  v.isScalar ∧ ∃ e, (m.base column v).result = .error e

/-- What is wrong with a row: a value that is rejected, a list where a single value should be, or
one coordinate without the other. -/
def Refuses (m : Mapper) (row : Columns) : Prop :=
  match m.kind with
  | .geoPoint latitude longitude _ =>
    (∃ column ∈ [latitude, longitude],
        m.Rejects column (row.cell column) ∨ (row.cell column).isList) ∨
      (row.cell latitude).isNull ≠ (row.cell longitude).isNull
  | _ =>
    (∃ v ∈ (row.cell m.column).elements, m.Rejects m.column v) ∨
      ∃ items, row.cell m.column = .list items ∧ ∃ v ∈ items, v.isList

/-- The fields of a payload: the one to sort by, then the one to search in, as far as the mapper
has them. -/
def elementFields (m : Mapper) (many : Bool) (base : FieldValue) : List Field :=
  (if m.sorted then
      [⟨m.field ++ ".sort", base, .docValues (m.tag.docValues many), false, .ofInt 1⟩]
    else []) ++
  if m.indexed then [⟨m.field, base, m.kind.fieldKind, false, m.boost⟩] else []

/-- The fields of a point, if it is searched in: the point and its geohash. -/
def spatialFields (m : Mapper) (levels : UInt8) (x y : Double) : List Field :=
  if m.indexed then
    [⟨m.field, .geoPoint x y, .latLonPoint, false, m.boost⟩,
      ⟨m.field, .str (Geo.geohash x y levels.toNat), .geoHash, false, m.boost⟩]
  else []

/-- The point of a row, which lies on the globe. -/
structure HasPoint (m : Mapper) (row : Columns) (latitude longitude : String) (x y : Double) :
    Prop where
  latitude : (m.base latitude (row.cell latitude)).result = .ok (some (.double x))
  longitude : (m.base longitude (row.cell longitude)).result = .ok (some (.double y))
  isLatitude : Geo.IsWithin 90 x
  isLongitude : Geo.IsWithin 180 y

/-- What is known of the fields of a row. -/
structure Materializes (m : Mapper) (row : Columns) : Prop where
  /-- A payload is never at fault. -/
  matched : ∀ e, (m.fields row).result = .error e →
    ∃ fault, m.materialize row = .error fault ∧ report fault = e ∧
      ∀ base, fault.cause ≠ .payload base
  refused : (∃ e, (m.fields row).result = .error e) ↔ m.Refuses row
  scalar : m.tag.isSpatial = false → ∀ fields, (m.fields row).result = .ok fields ↔
    ∃ bases,
      List.Forall₂ (fun v base => (m.base m.column v).result = .ok (some base))
        (row.cell m.column).present bases ∧
      bases.flatMap (m.elementFields (row.cell m.column).isList) = fields
  spatial : ∀ latitude longitude levels, m.kind = .geoPoint latitude longitude levels →
    ∀ fields, (m.fields row).result = .ok fields ↔
      (row.cell latitude).isNull ∧ (row.cell longitude).isNull ∧ fields = [] ∨
        ∃ x y, m.HasPoint row latitude longitude x y ∧ m.spatialFields levels x y = fields
  hashed : ∀ latitude longitude levels, m.kind = .geoPoint latitude longitude levels →
    ∀ fields, (m.fields row).result = .ok fields → ∀ f ∈ fields, f.kind = .geoHash →
      ∃ hash, f.value = .str hash ∧ hash.length = levels.toNat
  notStored : ∀ fields, (m.fields row).result = .ok fields → ∀ f ∈ fields, f.stored = false

/-! ## Single values -/

variable {m : Mapper} {column : String} {v : Value}

theorem result_base_eq_ok {base : Option FieldValue} :
    (m.base column v).result = .ok base ↔ m.coerce column v = .ok base :=
  mapError_eq_ok

/-- Values are rejected for what they are, or they are lists. -/
theorem exists_coerce_error_iff :
    (∃ fault, m.coerce column v = .error fault) ↔ m.Rejects column v ∨ v.isList := by
  have hbase : (∃ e, (m.base column v).result = .error e) ↔
      ∃ fault, m.coerce column v = .error fault := exists_mapError_eq_error
  rw [Rejects, hbase]
  cases v with
  | null => simp [coerce, Value.isScalar, Value.isNull, Value.isList]
  | list items => simp [coerce, Value.isList]
  | _ => simp [Value.isScalar, Value.isNull, Value.isList]

/-- A value is at fault itself, and no payload is. -/
theorem cause_ne_payload_of_coerce {fault : CoercionFault} (h : m.coerce column v = .error fault)
    (base : FieldValue) : fault.cause ≠ .payload base := by
  unfold coerce at h
  split at h
  · cases h
  · cases h
    simp [fault]
  · obtain ⟨cause, hcause, rfl⟩ := mapError_eq_error.1 h
    rw [map_eq_error] at hcause
    change cause ≠ .payload base
    split at hcause
    · exact MapperKind.cause_ne_payload_of_coordinate hcause base
    · exact MapperKind.cause_ne_payload_of_coerce hcause base

/-! ## Cells with payloads -/

theorem coerceAll_eq_coerceItems (m : Mapper) (column : String) (cell : Value) :
    m.coerceAll column cell = m.coerceItems column cell.elements := by
  unfold coerceAll
  split
  · rfl
  · rename_i hlist
    have hscalar : cell.isList = false := by
      cases cell with
      | list items => exact absurd rfl (hlist items)
      | _ => rfl
    rw [Value.elements_of_isList hscalar, coerceItems, coerceItems]
    cases m.coerce column cell with
    | error fault => rfl
    | ok base => cases base <;> rfl

/-- Items have a payload each, but for those that are empty. -/
theorem coerceItems_eq_ok {items : List Value} {bases : List FieldValue} :
    m.coerceItems column items = .ok bases ↔
      List.Forall₂ (fun v base => m.coerce column v = .ok (some base))
        (items.filter fun v => !v.isNull) bases := by
  induction items generalizing bases with
  | nil => simp [coerceItems, eq_comm]
  | cons item items ih =>
    simp only [coerceItems, bind_eq_ok, pure_eq_ok, ih]
    by_cases hitem : item = .null
    · subst hitem
      simp [coerce, Value.isNull]
    · have hnull : item.isNull = false := by
        rw [← Bool.not_eq_true]
        exact mt Value.isNull_iff.1 hitem
      have hsome {base : Option FieldValue} (h : m.coerce column item = .ok base) :
          ∃ b, base = some b := by
        cases base with
        | none => exact absurd (coerce_eq_none.1 h) hitem
        | some b => exact ⟨b, rfl⟩
      rw [List.filter_cons_of_pos (by simp [hnull]), List.forall₂_cons_left_iff]
      constructor
      · rintro ⟨base, hbase, rest, hrest, rfl⟩
        obtain ⟨b, rfl⟩ := hsome hbase
        exact ⟨b, rest, hbase, hrest, rfl⟩
      · rintro ⟨b, rest, hb, hrest, rfl⟩
        exact ⟨some b, hb, rest, hrest, rfl⟩

theorem coerceAll_eq_ok {cell : Value} {bases : List FieldValue} :
    m.coerceAll column cell = .ok bases ↔
      List.Forall₂ (fun v base => m.coerce column v = .ok (some base)) cell.present bases := by
  rw [coerceAll_eq_coerceItems, coerceItems_eq_ok, Value.present]

/-- Items fail as the first of them does. -/
theorem fault?_coerceItems (items : List Value) :
    fault? (m.coerceItems column items) =
      items.findSome? fun v => fault? (m.coerce column v) := by
  induction items with
  | nil => rfl
  | cons item items ih =>
    rw [coerceItems, List.findSome?_cons, fault?_bind fun base => fault?_bind_pure _ _, ih]
    cases fault? (m.coerce column item) <;> rfl

/-! ## Fields of payloads -/

variable {row : Columns}

theorem mem_elementFields {many : Bool} {base : FieldValue} {f : Field}
    (h : f ∈ m.elementFields many base) :
    f = ⟨m.field ++ ".sort", base, .docValues (m.tag.docValues many), false, .ofInt 1⟩ ∨
      f = ⟨m.field, base, m.kind.fieldKind, false, m.boost⟩ := by
  rw [elementFields, List.mem_append] at h
  refine h.imp (fun h => ?_) fun h => ?_
  · split at h
    · exact List.mem_singleton.1 h
    · cases h
  · split at h
    · exact List.mem_singleton.1 h
    · cases h

theorem payloadFields_of_type (hsort : m.sorted → m.tag.sort? ≠ none) (many : Bool)
    {bases : List FieldValue} (h : ∀ base ∈ bases, base.type = m.tag.payloadType) :
    m.payloadFields many bases = .ok (bases.flatMap (m.elementFields many)) := by
  induction bases with
  | nil => rfl
  | cons base bases ih =>
    rw [List.forall_mem_cons] at h
    rw [payloadFields, sortedField_of_type h.1 hsort, indexedField_of_type h.1, ih h.2,
      List.flatMap_cons, elementFields, sortName, defaultBoost]
    split <;> split <;> rfl

theorem type_of_coerceAll (hm : m.tag.isSpatial = false) {cell : Value} {bases : List FieldValue}
    (h : m.coerceAll column cell = .ok bases) : ∀ base ∈ bases, base.type = m.tag.payloadType := by
  intro base hbase
  obtain ⟨v, -, hv⟩ := exists_of_forall₂ (coerceAll_eq_ok.1 h) hbase
  exact type_of_coerce hm hv

/-- A row fails only as its cell does. -/
theorem materialize_scalar (hm : m.tag.isSpatial = false) (hsort : m.sorted → m.tag.sort? ≠ none)
    (row : Columns) :
    m.materialize row = (m.coerceAll m.column (row.cell m.column)).map fun bases =>
      bases.flatMap (m.elementFields (row.cell m.column).isList) := by
  rw [materialize_of_isSpatial hm]
  cases h : m.coerceAll m.column (row.cell m.column) with
  | error fault => rfl
  | ok bases => exact payloadFields_of_type hsort _ (type_of_coerceAll hm h)

/-! ## Points -/

section Points

variable {latitude longitude : String} {levels : UInt8}

theorem coerce_point (hkind : m.kind = .geoPoint latitude longitude levels) {base : FieldValue}
    (h : m.coerce column v = .ok (some base)) :
    ∃ x, base = .double x ∧
      if column = latitude then Geo.IsWithin 90 x else Geo.IsWithin 180 x := by
  have hv := isScalar_of_coerce h
  have hcoordinate : MapperKind.coordinate (column == latitude) v = .ok base := by
    cases v <;>
      simp_all [coerce, mapError_eq_ok, map_eq_ok, Value.isScalar, Value.isNull, Value.isList]
  obtain ⟨x, rfl, hx⟩ := MapperKind.exists_of_coordinate hcoordinate
  refine ⟨x, rfl, ?_⟩
  by_cases hcolumn : column = latitude
  · simpa [hcolumn, Geo.isLatitude_iff] using hx
  · simpa [hcolumn, Geo.isLongitude_iff] using hx

theorem mem_spatialFields {x y : Double} {f : Field} (h : f ∈ m.spatialFields levels x y) :
    f = ⟨m.field, .geoPoint x y, .latLonPoint, false, m.boost⟩ ∨
      f = ⟨m.field, .str (Geo.geohash x y levels.toNat), .geoHash, false, m.boost⟩ := by
  unfold spatialFields at h
  split at h
  · simpa using h
  · cases h

theorem materialize_point (hkind : m.kind = .geoPoint latitude longitude levels) (row : Columns) :
    m.materialize row = (m.point row latitude longitude).map fun
      | none => []
      | some (x, y) => m.spatialFields levels x y := by
  have htype (x y : Double) : (FieldValue.geoPoint x y).type = m.tag.payloadType := by
    rw [tag, hkind]
    rfl
  have hfields (x y : Double) : m.pointFields levels x y = .ok (m.spatialFields levels x y) := by
    rw [pointFields, indexedField_of_type (htype x y), spatialFields, hkind]
    split <;> rfl
  simp only [materialize, hkind]
  cases m.point row latitude longitude with
  | error fault => rfl
  | ok p =>
    cases p with
    | none => rfl
    | some xy => exact hfields xy.1 xy.2

theorem isNull_of_coerce {base : Option FieldValue} (h : m.coerce column v = .ok base) :
    v.isNull = base.isNone := by
  cases base with
  | none =>
    rw [coerce_eq_none.1 h]
    rfl
  | some base =>
    have hv := isScalar_of_coerce h
    simp only [Value.isScalar, Bool.and_eq_true, Bool.not_eq_true'] at hv
    exact hv.1

/-- A row has no point if both cells are empty, and else one on the globe. -/
theorem point_eq_ok (hkind : m.kind = .geoPoint latitude longitude levels)
    {p : Option (Double × Double)} :
    m.point row latitude longitude = .ok p ↔
      (row.cell latitude).isNull ∧ (row.cell longitude).isNull ∧ p = none ∨
        ∃ x y, m.HasPoint row latitude longitude x y ∧ p = some (x, y) := by
  simp only [point, bind_eq_ok]
  constructor
  · rintro ⟨lat, hlat, lon, hlon, h⟩
    cases lat with
    | none =>
      cases lon with
      | none =>
        cases h
        exact .inl ⟨isNull_of_coerce hlat, isNull_of_coerce hlon, rfl⟩
      | some base => cases h
    | some base =>
      obtain ⟨x, rfl, hx⟩ := coerce_point hkind hlat
      cases lon with
      | none => cases h
      | some base =>
        obtain ⟨y, rfl, hy⟩ := coerce_point hkind hlon
        cases h
        refine .inr ⟨x, y, ⟨result_base_eq_ok.2 hlat, result_base_eq_ok.2 hlon, ?_, ?_⟩, rfl⟩
        · simpa using hx
        · -- one column for both coordinates is read as one of latitudes
          split at hy
          · exact hy.mono (by norm_num)
          · exact hy
  · rintro (⟨hlat, hlon, rfl⟩ | ⟨x, y, hpoint, rfl⟩)
    · exact ⟨none, coerce_eq_none.2 (Value.isNull_iff.1 hlat), none,
        coerce_eq_none.2 (Value.isNull_iff.1 hlon), rfl⟩
    · exact ⟨_, result_base_eq_ok.1 hpoint.latitude, _, result_base_eq_ok.1 hpoint.longitude, rfl⟩

/-- A row fails if a coordinate does, or if there is only one. -/
theorem exists_point_error_iff (hkind : m.kind = .geoPoint latitude longitude levels) :
    (∃ fault, m.point row latitude longitude = .error fault) ↔
      (∃ column ∈ [latitude, longitude], ∃ fault,
          m.coerce column (row.cell column) = .error fault) ∨
        (row.cell latitude).isNull ≠ (row.cell longitude).isNull := by
  simp only [List.mem_cons, List.not_mem_nil, or_false, exists_eq_or_imp, exists_eq_left]
  cases hlat : m.coerce latitude (row.cell latitude) with
  | error fault => simp [point, hlat, bind, Except.bind]
  | ok lat =>
    cases hlon : m.coerce longitude (row.cell longitude) with
    | error fault => simp [point, hlat, hlon, bind, Except.bind]
    | ok lon =>
      rw [isNull_of_coerce hlat, isNull_of_coerce hlon, point, hlat, hlon]
      cases lat with
      | none => cases lon <;> simp [bind, Except.bind, pure, Except.pure]
      | some base =>
        obtain ⟨x, rfl, -⟩ := coerce_point hkind hlat
        cases lon with
        | none => simp [bind, Except.bind]
        | some base =>
          obtain ⟨y, rfl, -⟩ := coerce_point hkind hlon
          simp [bind, Except.bind, pure, Except.pure]

/-- Values are at fault, or that one is missing. -/
theorem cause_ne_payload_of_point {fault : CoercionFault}
    (h : m.point row latitude longitude = .error fault) (base : FieldValue) :
    fault.cause ≠ .payload base := by
  simp only [point, bind_eq_error] at h
  rcases h with hlat | ⟨lat, -, hlon | ⟨lon, -, h⟩⟩
  · exact cause_ne_payload_of_coerce hlat base
  · exact cause_ne_payload_of_coerce hlon base
  · split at h <;> cases h <;> simp [Mapper.fault]

end Points

/-! ## Rows -/

theorem result_fields_eq_ok {fields : List Field} :
    (m.fields row).result = .ok fields ↔ m.materialize row = .ok fields :=
  mapError_eq_ok

theorem exists_fields_error_iff :
    (∃ e, (m.fields row).result = .error e) ↔ ∃ fault, m.materialize row = .error fault :=
  exists_mapError_eq_error

theorem exists_coerceAll_error_iff {cell : Value} :
    (∃ fault, m.coerceAll column cell = .error fault) ↔
      (∃ v ∈ cell.elements, m.Rejects column v) ∨
        ∃ items, cell = .list items ∧ ∃ v ∈ items, v.isList := by
  have hlist : (∃ v ∈ cell.elements, v.isList) ↔
      ∃ items, cell = .list items ∧ ∃ v ∈ items, v.isList := by
    cases cell <;> simp [Value.elements, Value.isList]
  have hfault : (∃ fault, m.coerceAll column cell = .error fault) ↔
      ∃ v ∈ cell.elements, ∃ fault, m.coerce column v = .error fault := by
    simp only [coerceAll_eq_coerceItems, ← fault?_eq_some, ← Option.isSome_iff_exists,
      fault?_coerceItems, List.findSome?_isSome_iff]
  rw [hfault, ← hlist]
  simp only [exists_coerce_error_iff, and_or_left, exists_or]

/-- A payload is never at fault for a cell. -/
theorem cause_ne_payload_of_coerceAll {cell : Value} {fault : CoercionFault}
    (h : m.coerceAll column cell = .error fault) (base : FieldValue) :
    fault.cause ≠ .payload base := by
  rw [coerceAll_eq_coerceItems, ← fault?_eq_some, fault?_coerceItems] at h
  obtain ⟨v, -, hv⟩ := List.exists_of_findSome?_eq_some h
  exact cause_ne_payload_of_coerce (fault?_eq_some.1 hv) base

theorem kind_ne_of_isSpatial (hm : m.tag.isSpatial = false) (latitude longitude : String)
    (levels : UInt8) : m.kind ≠ .geoPoint latitude longitude levels := by
  intro hkind
  rw [tag, hkind] at hm
  cases hm

theorem exists_kind_of_isSpatial (hm : m.tag.isSpatial) :
    ∃ latitude longitude levels, m.kind = .geoPoint latitude longitude levels := by
  rw [tag] at hm
  cases hkind : m.kind with
  | geoPoint latitude longitude levels => exact ⟨_, _, _, rfl⟩
  | _ =>
    rw [hkind] at hm
    cases hm

theorem refuses_scalar (hm : m.tag.isSpatial = false) :
    m.Refuses row ↔ (∃ v ∈ (row.cell m.column).elements, m.Rejects m.column v) ∨
      ∃ items, row.cell m.column = .list items ∧ ∃ v ∈ items, v.isList := by
  unfold Refuses
  split
  · rename_i hkind
    exact absurd hkind (kind_ne_of_isSpatial hm _ _ _)
  · rfl

theorem materializes_scalar (hm : m.tag.isSpatial = false) (hsort : m.sorted → m.tag.sort? ≠ none)
    (row : Columns) : m.Materializes row := by
  have hrow := materialize_scalar hm hsort row
  have hscalar (fields : List Field) : (m.fields row).result = .ok fields ↔
      ∃ bases, List.Forall₂ (fun v base => (m.base m.column v).result = .ok (some base))
        (row.cell m.column).present bases ∧
          bases.flatMap (m.elementFields (row.cell m.column).isList) = fields := by
    simp only [result_fields_eq_ok, hrow, map_eq_ok, coerceAll_eq_ok, result_base_eq_ok]
  refine ⟨?_, ?_, fun _ => hscalar, ?_, ?_, ?_⟩
  · intro e he
    obtain ⟨fault, hfault, hreport⟩ := mapError_eq_error.1 he
    have hcell := hfault
    rw [hrow, map_eq_error] at hcell
    exact ⟨fault, hfault, hreport, cause_ne_payload_of_coerceAll hcell⟩
  · rw [exists_fields_error_iff, hrow, refuses_scalar hm, ← exists_coerceAll_error_iff]
    simp only [map_eq_error]
  · intro latitude longitude levels hkind
    exact absurd hkind (kind_ne_of_isSpatial hm _ _ _)
  · intro latitude longitude levels hkind
    exact absurd hkind (kind_ne_of_isSpatial hm _ _ _)
  · intro fields hfields f hf
    obtain ⟨bases, -, rfl⟩ := (hscalar fields).1 hfields
    obtain ⟨base, -, hf⟩ := List.mem_flatMap.1 hf
    rcases mem_elementFields hf with rfl | rfl
    · rfl
    · rfl

theorem materializes_point {latitude longitude : String} {levels : UInt8}
    (hkind : m.kind = .geoPoint latitude longitude levels) (row : Columns) :
    m.Materializes row := by
  have hrow := materialize_point hkind row
  have hspatial (fields : List Field) : (m.fields row).result = .ok fields ↔
      (row.cell latitude).isNull ∧ (row.cell longitude).isNull ∧ fields = [] ∨
        ∃ x y, m.HasPoint row latitude longitude x y ∧ m.spatialFields levels x y = fields := by
    simp only [result_fields_eq_ok, hrow, map_eq_ok, point_eq_ok hkind]
    constructor
    · rintro ⟨p, ⟨hlat, hlon, rfl⟩ | ⟨x, y, hpoint, rfl⟩, rfl⟩
      · exact .inl ⟨hlat, hlon, rfl⟩
      · exact .inr ⟨x, y, hpoint, rfl⟩
    · rintro (⟨hlat, hlon, rfl⟩ | ⟨x, y, hpoint, rfl⟩)
      · exact ⟨none, .inl ⟨hlat, hlon, rfl⟩, rfl⟩
      · exact ⟨_, .inr ⟨x, y, hpoint, rfl⟩, rfl⟩
  have hm : m.tag.isSpatial := by
    rw [tag, hkind]
    rfl
  refine ⟨?_, ?_, ?_, ?_, ?_, ?_⟩
  · intro e he
    obtain ⟨fault, hfault, hreport⟩ := mapError_eq_error.1 he
    have hcell := hfault
    rw [hrow, map_eq_error] at hcell
    exact ⟨fault, hfault, hreport, cause_ne_payload_of_point hcell⟩
  · rw [exists_fields_error_iff, hrow, Refuses, hkind]
    simp only [map_eq_error, exists_point_error_iff hkind, exists_coerce_error_iff]
  · intro hm'
    rw [hm] at hm'
    cases hm'
  · intro latitude' longitude' levels' hkind'
    cases hkind.symm.trans hkind'
    exact hspatial
  · intro latitude' longitude' levels' hkind' fields hfields f hf hhash
    cases hkind.symm.trans hkind'
    obtain ⟨-, -, rfl⟩ | ⟨x, y, -, rfl⟩ := (hspatial fields).1 hfields
    · cases hf
    · rcases mem_spatialFields hf with rfl | rfl
      · cases hhash
      · exact ⟨_, rfl, Geo.length_geohash x y levels.toNat⟩
  · intro fields hfields f hf
    obtain ⟨-, -, rfl⟩ | ⟨x, y, -, rfl⟩ := (hspatial fields).1 hfields
    · cases hf
    · rcases mem_spatialFields hf with rfl | rfl
      · rfl
      · rfl

/-- A mapper that does not sort where the engine cannot makes fields as it should. -/
theorem materializes_of_sort? (hsort : m.sorted → m.tag.sort? ≠ none) (row : Columns) :
    m.Materializes row := by
  cases hm : m.tag.isSpatial with
  | false => exact materializes_scalar hm hsort row
  | true =>
    obtain ⟨latitude, longitude, levels, hkind⟩ := exists_kind_of_isSpatial hm
    exact materializes_point hkind row

/-- What is known of the fields that a built mapper makes of a row. -/
theorem Draft.materializes_of_build {d : Draft} {field : String} (h : d.build field = .ok m)
    (row : Columns) : m.Materializes row :=
  materializes_of_sort? (sort?_of_build h) row

/-- A draft of years, which are sorted by. -/
def sampleYears : Draft := { sorted := some true, kind := .integer }

/-- The mapper of the draft. -/
def sampleYear : Mapper := ⟨"year", "year", true, true, defaultBoost, .integer⟩

/-- A draft of places, by two coordinates. -/
def samplePlaces : Draft := { kind := .geoPoint (some "north") (some "east") none }

/-- A row with two years, and an empty item before them. -/
def sampleYearRow : Columns := .ofList [("year", .list [.null, .long 1984, .text "2001"])]

/-- Each of the two years has two fields. -/
theorem materializes_of_build_years :
    sampleYears.build "year" = .ok sampleYear ∧ sampleYear.Materializes sampleYearRow ∧
      (sampleYear.fields sampleYearRow).result =
        .ok [⟨"year.sort", .int 1984, .docValues .sortedNumeric, false, .ofInt 1⟩,
          ⟨"year", .int 1984, .intPoint, false, .ofInt 1⟩,
          ⟨"year.sort", .int 2001, .docValues .sortedNumeric, false, .ofInt 1⟩,
          ⟨"year", .int 2001, .intPoint, false, .ofInt 1⟩] := by
  have h : sampleYears.build "year" = .ok sampleYear := rfl
  exact ⟨h, Draft.materializes_of_build h sampleYearRow, rfl⟩

end Mapper

end ColumnIndex
