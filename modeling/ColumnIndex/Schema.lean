import ColumnIndex.Entries
import ColumnIndex.Mapper

/-!
# Schemas

A schema is a list of mappers for the logical fields of an index, with the position of each mapper
under its field. Against a schema rows become documents, and conditions become queries.

## Main definitions

* `Schema.positionsOf` — the positions of mappers under their fields.
* `Schema` — the schemas.
* `Schema.ofMappers` — the schema of a list of mappers.
* `Schema.mapper?` — the mapper of a field, found at its position.
* `Schema.mappedColumns` — the columns that are read.
* `Schema.validateColumns` — whether the columns of a table fit.
* `Schema.document` — the document of a row.
* `Schema.sortField` — the criterion that sorts by a field.
-/
namespace ColumnIndex

/-- The positions of mappers under their fields. Of mappers for the same field the last one counts.
-/
def Schema.positionsOf (mappers : List Mapper) : List (String × Nat) :=
  mappers.zipIdx.foldl (fun positions (m, i) => Entries.put m.field i positions) []

/-- The mappers of an index, in the order in which they were declared, their positions, and the
analyzer of the fields that name none. -/
structure Schema where
  defaultAnalyzer : Analyzer
  mappers : List Mapper
  positions : List (String × Nat)
  indexed : positions = Schema.positionsOf mappers

/-- A column of a table. -/
structure ColumnMetadata where
  name : String
  type : ColumnType

/-- Why the columns of a table do not fit a schema. -/
inductive ColumnFault
  | missing (column field : String)
  | unsupported (mapper : MapperTag) (field column : String) (type : ColumnType)

/-- The wording of a fault. -/
def ColumnFault.message : ColumnFault → String
  | missing column field => "no column '" ++ column ++ "' for mapper '" ++ field ++ "'"
  | unsupported mapper field column type =>
    "'" ++ mapper.name ++ "' mapper '" ++ field ++ "' does not support column '" ++ column
      ++ "' of type " ++ type.text

instance : Reported ColumnFault where
  report fault := ⟨.schemaValidation, .schema, fault.message⟩

namespace Schema

/-- The schema of a list of mappers. -/
def ofMappers (analyzer : Analyzer) (mappers : List Mapper) : Schema :=
  ⟨analyzer, mappers, positionsOf mappers, rfl⟩

/-- The mapper of a field, at the position under the field. -/
def mapper? (s : Schema) (field : String) : Option Mapper := do
  let i ← s.positions.lookup field
  s.mappers[i]?

/-- The mapper of a field, or a fault. -/
def requireMapper (s : Schema) (field : String) : Except CompileFault Mapper :=
  match s.mapper? field with
  | some m => .ok m
  | none => .error (.fieldNotFound field)

/-- How many fields there are. -/
def size (s : Schema) : Nat := s.mappers.length

/-- Whether there is no field. -/
def isEmpty (s : Schema) : Bool := s.mappers.isEmpty

/-- The columns that are read, each once, in the order of their first use. -/
def mappedColumns (s : Schema) : List String := (s.mappers.flatMap Mapper.mappedColumns).eraseDups

/-- The analyzer of a field in terms. -/
def analyzer? (s : Schema) (field : String) : Option Analyzer :=
  (s.mapper? field).bind Mapper.analyzer?

/-! ## Tables -/

/-- Whether the columns of a table have one of the name that the mapper reads. -/
def validateColumn (columns : List ColumnMetadata) (m : Mapper) (name : String) :
    Except ColumnFault Unit :=
  match columns.find? (·.name == name) with
  | none => .error (.missing name m.field)
  | some column =>
    if m.supports column.type then .ok ()
    else .error (.unsupported m.tag m.field name column.type)

/-- Whether the columns of a table fit. -/
def validateColumns (s : Schema) (columns : List ColumnMetadata) : Except ColumnFault Unit :=
  s.mappers.forM fun m => m.mappedColumns.forM (validateColumn columns m)

/-! ## Rows -/

/-- The fields that the mappers make of a row. The first mapper that fails is the last one that is
asked. -/
def fieldsOf (row : Columns) : List Mapper → Recorded (List Field)
  | [] => pure []
  | m :: ms => do
    let fields ← m.fields row
    let rest ← fieldsOf row ms
    pure (fields ++ rest)

/-- The document of a row. -/
def document (s : Schema) (row : Columns) : Recorded Document := do
  let fields ← fieldsOf row s.mappers
  pure ⟨fields⟩

/-- The criterion that sorts by a field. -/
def sortField (s : Schema) (field : String) (reverse : Bool) : Except CompileFault SortField := do
  let m ← s.requireMapper field
  m.sortField (sortName field) reverse

end Schema

end ColumnIndex
