import ColumnIndex.Columns
import ColumnIndex.Compile.Fault
import ColumnIndex.Metrics.Event

/-!
# Mappers

A mapper turns the cells of one logical field into fields of the search engine: fields to search
in, which carry the name of the logical field, and fields to sort by, which carry that name with
a suffix.

## Main definitions

* `Mapper` — the mappers.
* `Mapper.coerce`, `Mapper.coerceAll` — the payloads of a cell.
* `Mapper.materialize` — the fields of a row.
* `Mapper.base`, `Mapper.bases`, `Mapper.fields` — the same with the events that they cause.
* `Mapper.sortField` — how the engine sorts by the mapper.
-/
namespace ColumnIndex

/-- What turns the cells of a logical field into fields of the engine. -/
structure Mapper where
  field : String
  column : String
  indexed : Bool
  sorted : Bool
  boost : Single
  kind : MapperKind

/-- The name of the fields to sort by. -/
def sortName (field : String) : String := field ++ ".sort"

namespace Mapper

/-- The kind of the mapper without its options. -/
def tag (m : Mapper) : MapperTag := m.kind.tag

/-- The columns that are read. -/
def mappedColumns (m : Mapper) : List String :=
  match m.kind with
  | .geoPoint latitude longitude _ => [latitude, longitude]
  | _ => [m.column]

/-- The analyzer of a field in terms. -/
def analyzer? (m : Mapper) : Option Analyzer :=
  match m.kind with
  | .text analyzer => some (analyzer.getD .standard)
  | _ => none

/-- Whether the cells of a column type can be read. -/
def supports (m : Mapper) (type : ColumnType) : Bool := m.tag.supports type

/-- The mapper with the analyzer, if it is one of texts in terms that has none of its own. -/
def resolveAnalyzer (m : Mapper) (analyzer : Analyzer) : Mapper :=
  match m.kind with
  | .text none => { m with kind := .text (some analyzer) }
  | _ => m

/-! ## Payloads -/

/-- A fault at a column. -/
def fault (m : Mapper) (column : String) (cause : CoercionCause) : CoercionFault :=
  ⟨m.field, column, cause⟩

/-- The payload of a value in a column. An empty cell has none, and a list is no single value. -/
def coerce (m : Mapper) (column : String) (v : Value) :
    Except CoercionFault (Option FieldValue) :=
  match v with
  | .null => .ok none
  | .list _ => .error (m.fault column (.value v))
  | _ =>
    let base :=
      match m.kind with
      | .geoPoint latitude _ _ => MapperKind.coordinate (column == latitude) v
      | kind => kind.coerce v
    (base.map some).mapError (m.fault column)

/-- The payloads of the items of a list; empty items have none. -/
def coerceItems (m : Mapper) (column : String) : List Value → Except CoercionFault (List FieldValue)
  | [] => .ok []
  | item :: items => do
    let base ← m.coerce column item
    let bases ← coerceItems m column items
    pure (base.toList ++ bases)

/-- The payloads of a cell: one for each item of a list, or that of a single value. -/
def coerceAll (m : Mapper) (column : String) (v : Value) : Except CoercionFault (List FieldValue) :=
  match v with
  | .list items => m.coerceItems column items
  | _ => (m.coerce column v).map Option.toList

/-! ## Fields -/

/-- The kind of the field to search in, for a payload that the mapper produces. -/
def fieldKind? (m : Mapper) (base : FieldValue) : Option FieldKind :=
  match m.kind, base with
  | .integer, .int _ => some .intPoint
  | .long, .long _ => some .longPoint
  | .date _, .long _ => some .longPoint
  | .float, .float _ => some .floatPoint
  | .double, .double _ => some .doublePoint
  | .text analyzer, .str _ => some (.text (analyzer.getD .standard).name)
  | .geoPoint .., .geoPoint .. => some .latLonPoint
  | kind, .str _ => if kind.tag.family = .keyword then some .keyword else none
  | _, _ => none

/-- The field to search in, if the mapper has one. -/
def indexedField (m : Mapper) (name : String) (base : FieldValue) :
    Except CoercionFault (Option Field) :=
  if m.indexed then
    match m.fieldKind? base with
    | some kind => .ok (some (.indexed name base kind m.boost))
    | none => .error (m.fault name (.payload base))
  else .ok none

/-- The field to sort by, if the mapper has one. -/
def sortedField (m : Mapper) (name : String) (base : FieldValue) (multiValued : Bool) :
    Except CoercionFault (Option Field) :=
  if m.sorted then
    match m.tag.docValues? with
    | some single =>
      if (if single.isNumeric then base.isNumeric else base.asText?.isSome) then
        .ok (some (.docValues name base (if multiValued then single.multiValued else single)))
      else .error (m.fault name (.payload base))
    | none => .error (m.fault name (.payload base))
  else .ok none

/-- How the engine sorts by the mapper. -/
def sortKind? (m : Mapper) : Option SortKind := if m.sorted then m.tag.sort? else none

/-- The criterion that sorts by the mapper. -/
def sortField (m : Mapper) (name : String) (reverse : Bool) : Except CompileFault SortField :=
  match m.sortKind? with
  | some kind => .ok ⟨name, kind, reverse⟩
  | none => .error (.notSorted m.field)

/-- The fields of the payloads of a cell: for each the one to sort by, then the one to search
in. -/
def payloadFields (m : Mapper) (multiValued : Bool) :
    List FieldValue → Except CoercionFault (List Field)
  | [] => .ok []
  | base :: bases => do
    let sorted ← m.sortedField (sortName m.field) base multiValued
    let indexed ← m.indexedField m.field base
    let fields ← payloadFields m multiValued bases
    pure (sorted.toList ++ indexed.toList ++ fields)

/-- The point of a row: both coordinates or none must be there. -/
def point (m : Mapper) (row : Columns) (latitude longitude : String) :
    Except CoercionFault (Option (Double × Double)) := do
  let lat ← m.coerce latitude (row.cell latitude)
  let lon ← m.coerce longitude (row.cell longitude)
  match lat, lon with
  | none, none => pure none
  | some (.double x), some (.double y) => pure (some (x, y))
  | none, some _ => .error (m.fault latitude .loneCoordinate)
  | _, _ => .error (m.fault longitude .loneCoordinate)

/-- The fields of a point: the point itself and its geohash. -/
def pointFields (m : Mapper) (levels : UInt8) (latitude longitude : Double) :
    Except CoercionFault (List Field) := do
  match ← m.indexedField m.field (.geoPoint latitude longitude) with
  | none => pure []
  | some field =>
    let hash := Geo.geohash latitude longitude levels.toNat
    pure [field, .indexed m.field (.str hash) .geoHash m.boost]

/-- The fields of a row. -/
def materialize (m : Mapper) (row : Columns) : Except CoercionFault (List Field) :=
  match m.kind with
  | .geoPoint latitude longitude levels => do
    match ← m.point row latitude longitude with
    | none => pure []
    | some (x, y) => m.pointFields levels x y
  | _ => do
    let cell := row.cell m.column
    let bases ← m.coerceAll m.column cell
    m.payloadFields cell.isList bases

/-! ## With events -/

/-- The events of a coercion: a value that is rejected is one. -/
def rejections {α : Type} (m : Mapper) : Except CoercionFault α → List Event
  | .ok _ => []
  | .error fault => if fault.isRejection then [.coercionRejected m.field] else []

/-- The payload of a value in a column. -/
def base (m : Mapper) (column : String) (v : Value) : Recorded (Option FieldValue) :=
  let outcome := m.coerce column v
  ⟨outcome.mapError report, m.rejections outcome⟩

/-- The payloads of a cell. -/
def bases (m : Mapper) (column : String) (v : Value) : Recorded (List FieldValue) :=
  let outcome := m.coerceAll column v
  ⟨outcome.mapError report, m.rejections outcome⟩

/-- The fields of a row. -/
def fields (m : Mapper) (row : Columns) : Recorded (List Field) :=
  let outcome := m.materialize row
  let events := match outcome with
    | .ok fields => [.fieldsMaterialized m.field fields.length]
    | .error _ => m.rejections outcome
  ⟨outcome.mapError report, events⟩

end Mapper

end ColumnIndex
