import ColumnIndex.Proofs.EventTotals
import ColumnIndex.Proofs.RowFields
import ColumnIndex.Proofs.SchemaDrafts

/-!
# Rejected rows are counted

A row that a mapper refuses is counted once, as a rejection of the mapper's field, and a row that
it accepts is not. One refusal is not counted: the one of a point that has only one of its
coordinates, since no value of such a row was rejected.

## Main definitions

* `Mapper.IsBuilt` — the mappers as they come about.
* `Mapper.LacksCoordinate` — the rows with one good coordinate and nothing in place of the other.
* `Counters.Rejected`, `Counters.SameRejections` — how the counters of rejections change.

Main statement: `Mapper.rejections_fields_of_isBuilt`.
-/
namespace ColumnIndex

open Outcome

/-! ## What is said -/

/-- Mappers come from drafts that were built. A schema may give them an analyzer after that. -/
inductive Mapper.IsBuilt : Mapper → Prop
  | draft {d : Mapper.Draft} {field : String} {m : Mapper} (h : d.build field = .ok m) :
    Mapper.IsBuilt m
  | resolved {m : Mapper} (analyzer : Analyzer) (h : Mapper.IsBuilt m) :
    Mapper.IsBuilt (m.resolveAnalyzer analyzer)

/-- One cell of a point is empty, and no coordinate is at fault. -/
def Mapper.LacksCoordinate (m : Mapper) (row : Columns) : Prop :=
  match m.kind with
  | .geoPoint latitude longitude _ =>
    (row.cell latitude).isNull ≠ (row.cell longitude).isNull ∧
      ∀ column ∈ [latitude, longitude], ∃ base, (m.base column (row.cell column)).result = .ok base
  | _ => False

/-- One more value of a field was rejected, and none of another one. -/
structure Counters.Rejected (before after : Counters) (field : String) : Prop where
  operations : after.operations.coercionsRejected =
    saturatingAdd before.operations.coercionsRejected 1
  own : (after.field field).coercionsRejected =
    saturatingAdd (before.field field).coercionsRejected 1
  others : ∀ name ≠ field,
    (after.field name).coercionsRejected = (before.field name).coercionsRejected

/-- No more values were rejected. -/
structure Counters.SameRejections (before after : Counters) : Prop where
  operations : after.operations.coercionsRejected = before.operations.coercionsRejected
  fields : ∀ name, (after.field name).coercionsRejected = (before.field name).coercionsRejected

/-! ## Counting a row -/

namespace Counters

variable {c : Counters} {field : String}

theorem sameRejections_nil (c : Counters) : c.SameRejections (c.countAll []) := ⟨rfl, fun _ => rfl⟩

theorem sameRejections_materialized (h : Ordered c.fields) (n : Nat) :
    c.SameRejections (c.countAll [.fieldsMaterialized field n]) := by
  refine ⟨rfl, fun name => ?_⟩
  change ((c.count _).field name).coercionsRejected = _
  rw [field_count h]
  split <;> rfl

theorem rejected_coercionRejected (h : Ordered c.fields) :
    c.Rejected (c.countAll [.coercionRejected field]) field := by
  refine ⟨rfl, ?_, fun name hname => ?_⟩
  · change ((c.count _).field field).coercionsRejected = _
    rw [field_count h, Event.field?, if_pos rfl]
    rfl
  · change ((c.count _).field name).coercionsRejected = _
    rw [field_count h, if_neg (by simpa [Event.field?] using hname.symm)]

/-- The fields of counters that start at zero stand in order. -/
theorem ordered_countAll (events : List Event) : Ordered (Counters.countAll {} events).fields := by
  induction events using List.reverseRecOn with
  | nil => exact List.Pairwise.nil
  | append_singleton events e ih =>
    rw [countAll_append]
    exact ordered_countField ih e

end Counters

/-! ## Faults of values -/

theorem MapperKind.isRejection_of_coordinate {isLatitude : Bool} {v : Value}
    {cause : CoercionCause} (h : coordinate isLatitude v = .error cause) (field column : String) :
    (CoercionFault.mk field column cause).isRejection := by
  unfold coordinate at h
  split at h
  · cases h
    rfl
  · obtain ⟨-, rfl⟩ := ite_ok_eq_error.1 h
    rfl

theorem MapperKind.isRejection_of_coerce {k : MapperKind} {v : Value} {cause : CoercionCause}
    (h : k.coerce v = .error cause) (field column : String) :
    (CoercionFault.mk field column cause).isRejection := by
  cases k with
  | bigDecimal whole fraction =>
    simp only [coerce] at h
    split at h
    · cases h
      rfl
    · split at h
      · cases h
      · cases h
        rfl
  | geoPoint latitude longitude levels =>
    cases h
    rfl
  | _ =>
    rw [← (orRejected_eq_error.1 h).2]
    rfl

namespace Mapper

variable {m : Mapper} {row : Columns} {column : String} {fault : CoercionFault}

/-- A single value that is at fault was rejected. -/
theorem isRejection_of_coerce {v : Value} (h : m.coerce column v = .error fault) :
    fault.isRejection := by
  unfold coerce at h
  split at h
  · cases h
  · cases h
    rfl
  · obtain ⟨cause, hcause, rfl⟩ := mapError_eq_error.1 h
    rw [map_eq_error] at hcause
    split at hcause
    · exact MapperKind.isRejection_of_coordinate hcause _ _
    · exact MapperKind.isRejection_of_coerce hcause _ _

/-- The cell of a scalar mapper fails as one of its items does. -/
theorem isRejection_of_coerceAll {cell : Value} (h : m.coerceAll column cell = .error fault) :
    fault.isRejection := by
  rw [coerceAll_eq_coerceItems, ← fault?_eq_some, fault?_coerceItems] at h
  obtain ⟨v, -, hv⟩ := List.exists_of_findSome?_eq_some h
  exact isRejection_of_coerce (fault?_eq_some.1 hv)

/-! ## Faults of rows -/

section Points

variable {latitude longitude : String} {levels : UInt8}

theorem lacksCoordinate_iff (hkind : m.kind = .geoPoint latitude longitude levels) :
    m.LacksCoordinate row ↔ (row.cell latitude).isNull ≠ (row.cell longitude).isNull ∧
      (∃ base, m.coerce latitude (row.cell latitude) = .ok base) ∧
        ∃ base, m.coerce longitude (row.cell longitude) = .ok base := by
  simp [LacksCoordinate, hkind, result_base_eq_ok]

/-- A point fails for a coordinate that was rejected, or for one that is not there. -/
theorem isRejection_of_point (hkind : m.kind = .geoPoint latitude longitude levels)
    (h : m.point row latitude longitude = .error fault) :
    fault.isRejection = false ↔ m.LacksCoordinate row := by
  rw [lacksCoordinate_iff hkind]
  have hrejected {column : String} {v : Value} (hv : m.coerce column v = .error fault) :
      fault.isRejection ≠ false := by
    simp [isRejection_of_coerce hv]
  rw [point, bind_eq_error] at h
  rcases h with hlat | ⟨lat, hlat, h⟩
  · simp [hrejected hlat, hlat]
  · rcases bind_eq_error.1 h with hlon | ⟨lon, hlon, h⟩
    · simp [hrejected hlon, hlon]
    · rw [isNull_of_coerce hlat, isNull_of_coerce hlon]
      cases lat with
      | none =>
        cases lon with
        | none => cases h
        | some base =>
          cases h
          simp [hlat, hlon, Mapper.fault, CoercionFault.isRejection]
      | some base =>
        obtain ⟨x, rfl, -⟩ := coerce_point hkind hlat
        cases lon with
        | none =>
          cases h
          simp [hlat, hlon, Mapper.fault, CoercionFault.isRejection]
        | some base =>
          obtain ⟨y, rfl, -⟩ := coerce_point hkind hlon
          cases h

end Points

theorem IsBuilt.sort? (h : m.IsBuilt) : m.sorted → m.tag.sort? ≠ none := by
  induction h with
  | draft h => exact Draft.sort?_of_build h
  | resolved analyzer _ ih =>
    rw [sorted_resolveAnalyzer, tag_resolveAnalyzer]
    exact ih

/-- A row fails for a value that was rejected, or else a coordinate is not there. -/
theorem isRejection_of_materialize (hm : m.IsBuilt) (h : m.materialize row = .error fault) :
    fault.isRejection = false ↔ m.LacksCoordinate row := by
  cases hspatial : m.tag.isSpatial with
  | false =>
    rw [materialize_scalar hspatial hm.sort?, map_eq_error] at h
    have hlacks : ¬m.LacksCoordinate row := by
      unfold LacksCoordinate
      split
      · rename_i hkind
        exact absurd hkind (kind_ne_of_isSpatial hspatial _ _ _)
      · exact not_false
    simp [isRejection_of_coerceAll h, hlacks]
  | true =>
    obtain ⟨latitude, longitude, levels, hkind⟩ := exists_kind_of_isSpatial hspatial
    rw [materialize_point hkind, map_eq_error] at h
    exact isRejection_of_point hkind h

/-- A row with one coordinate is refused. -/
theorem refuses_of_lacksCoordinate (h : m.LacksCoordinate row) : m.Refuses row := by
  unfold LacksCoordinate at h
  split at h
  · rename_i hkind
    rw [Refuses, hkind]
    exact .inr h.1
  · exact h.elim

/-! ## Rows with their events -/

theorem events_fields_of_ok {fields : List Field} (h : m.materialize row = .ok fields) :
    (m.fields row).events = [.fieldsMaterialized m.field fields.length] := by
  simp [Mapper.fields, h]

theorem events_fields_of_error (h : m.materialize row = .error fault) :
    (m.fields row).events = if fault.isRejection then [.coercionRejected m.field] else [] := by
  simp [Mapper.fields, h, rejections]

/-- **Refusals are counted once.** A row that is written raises no counter of rejections. A row
that is refused raises that of all operations and that of the field by one, but for a row that
lacks one coordinate: it is refused as well, and raises none. -/
theorem rejections_fields_of_isBuilt (hm : m.IsBuilt) (row : Columns) (history : List Event) :
    let before := Counters.countAll {} history
    let after := before.countAll (m.fields row).events
    ((∃ fields, (m.fields row).result = .ok fields) → before.SameRejections after) ∧
      (∀ e, (m.fields row).result = .error e →
        e.errorClass = .coercion ∧
          (¬m.LacksCoordinate row → before.Rejected after m.field) ∧
            (m.LacksCoordinate row → before.SameRejections after)) ∧
        (m.LacksCoordinate row → ∃ e, (m.fields row).result = .error e) := by
  intro before after
  have hordered : Counters.Ordered before.fields := Counters.ordered_countAll history
  refine ⟨?_, ?_, ?_⟩
  · rintro ⟨fields, hfields⟩
    change before.SameRejections (before.countAll (m.fields row).events)
    rw [events_fields_of_ok (result_fields_eq_ok.1 hfields)]
    exact Counters.sameRejections_materialized hordered _
  · intro e he
    obtain ⟨fault, hfault, rfl⟩ := mapError_eq_error.1 he
    have hlacks := isRejection_of_materialize hm hfault
    change _ ∧ (_ → before.Rejected (before.countAll (m.fields row).events) _) ∧
      (_ → before.SameRejections (before.countAll (m.fields row).events))
    rw [events_fields_of_error hfault, ← hlacks]
    refine ⟨rfl, fun hrejected => ?_, fun hmissing => ?_⟩
    · rw [if_pos (by simpa using hrejected)]
      exact Counters.rejected_coercionRejected hordered
    · rw [hmissing]
      exact Counters.sameRejections_nil before
  · intro h
    exact (materializes_of_sort? hm.sort? row).refused.2 (refuses_of_lacksCoordinate h)

/-- A year that is none is counted. -/
theorem rejections_fields_of_isBuilt_year :
    let row : Columns := .ofList [("year", .list [.long 1984, .bool true])]
    sampleYear.IsBuilt ∧ ∃ e, (sampleYear.fields row).result = .error e ∧
      Counters.Rejected {} (Counters.countAll {} (sampleYear.fields row).events) "year" := by
  intro row
  have hbuild : sampleYears.build "year" = .ok sampleYear := rfl
  have hbuilt : sampleYear.IsBuilt := .draft hbuild
  have hlacks : ¬sampleYear.LacksCoordinate row := not_false
  obtain ⟨-, hrefused, -⟩ := rejections_fields_of_isBuilt hbuilt row []
  exact ⟨hbuilt, _, rfl, (hrefused _ rfl).2.1 hlacks⟩

/-- A mapper of harbors, of a draft of places. -/
def sampleHarbor : Mapper :=
  ⟨"harbor", "harbor", true, false, defaultBoost, .geoPoint "north" "east" 11⟩

/-- A harbor without a longitude. -/
def sampleMeridian : Columns := .ofList [("north", .int 40)]

/-- The row is refused, and no counter knows of it. -/
theorem refused_not_counted :
    samplePlaces.build "harbor" = .ok sampleHarbor ∧
      (∃ e, (sampleHarbor.fields sampleMeridian).result = .error e ∧ e.errorClass = .coercion) ∧
        Counters.countAll {} (sampleHarbor.fields sampleMeridian).events = {} ∧
          ¬Counters.Rejected {} (Counters.countAll {} (sampleHarbor.fields sampleMeridian).events)
            "harbor" := by
  have hevents : (sampleHarbor.fields sampleMeridian).events = [] := rfl
  refine ⟨rfl, ⟨_, rfl, rfl⟩, ?_, fun h => ?_⟩
  · rw [hevents]
    rfl
  · rw [hevents] at h
    exact absurd h.operations (by decide)

end Mapper

end ColumnIndex
