import ColumnIndex.Analyzer
import ColumnIndex.ColumnType
import ColumnIndex.Engine.Field
import ColumnIndex.Engine.Sort

/-!
# Kinds of mappers

The kind of a mapper says what its cells are read as, and carries the options of that reading. How
the engine searches and sorts depends on the kind without its options, which is its tag.

## Main definitions

* `MapperTag` — the kinds without their options.
* `MapperTag.family`, `MapperTag.sort?` — how the engine searches and sorts.
* `MapperTag.supports` — whether a kind reads the cells of a column type.
* `MapperKind` — the kinds with their options.
-/
namespace ColumnIndex

/-- What conditions a mapper takes part in. -/
inductive BaseFamily
  | numeric
  /-- Texts that are one term. -/
  | keyword
  /-- Texts in terms. -/
  | textual
  | spatial
  deriving DecidableEq

/-- The name of a family. -/
def BaseFamily.name : BaseFamily → String
  | numeric => "Numeric"
  | keyword => "Keyword"
  | textual => "Textual"
  | spatial => "Spatial"

/-- What the cells of a mapper are read as. -/
inductive MapperTag
  | integer
  | long
  | float
  | double
  | bigDecimal
  /-- Whole texts. -/
  | string
  /-- Texts in terms. -/
  | text
  | boolean
  | date
  | blob
  | inet
  | uuid
  /-- Points on the globe. -/
  | geoPoint
  deriving DecidableEq

namespace MapperTag

/-- All tags. -/
def all : List MapperTag :=
  [integer, long, float, double, bigDecimal, string, text, boolean, date, blob, inet, uuid,
    geoPoint]

/-- The name of a tag. -/
def name : MapperTag → String
  | integer => "integer"
  | long => "long"
  | float => "float"
  | double => "double"
  | bigDecimal => "bigdec"
  | string => "string"
  | text => "text"
  | boolean => "boolean"
  | date => "date"
  | blob => "blob"
  | inet => "inet"
  | uuid => "uuid"
  | geoPoint => "geo_point"

/-- The tag of a name. -/
def ofName? (name : String) : Option MapperTag := all.find? (·.name == name)

/-- The family of a kind. -/
def family : MapperTag → BaseFamily
  | integer | long | float | double | date => .numeric
  | bigDecimal | string | boolean | blob | inet | uuid => .keyword
  | text => .textual
  | geoPoint => .spatial

/-- How the engine sorts by a mapper of the kind, if it can. -/
def sort? : MapperTag → Option SortKind
  | integer => some .int
  | long | date => some .long
  | float => some .float
  | double => some .double
  | bigDecimal | string | boolean | blob | inet | uuid => some .string
  | text | geoPoint => none

/-- Whether the engine cuts the texts into terms. -/
def isAnalyzed (t : MapperTag) : Bool := t == text

/-- Whether the engine can sort. -/
def supportsSorting (t : MapperTag) : Bool := t.sort?.isSome

/-- Whether conditions on texts apply. -/
def isString (t : MapperTag) : Bool := t.family == .keyword || t.family == .textual

/-- Whether conditions on points apply. -/
def isSpatial (t : MapperTag) : Bool := t.family == .spatial

/-- How a single payload is kept for sorting, if the engine can sort. -/
def docValues? (t : MapperTag) : Option DocValues :=
  t.sort?.map fun sort => if sort = .string then .sorted else .numeric

/-- Whether a mapper of the kind reads the cells of a column type. -/
def supports (t : MapperTag) (type : ColumnType) : Bool :=
  let element := type.element
  match t with
  | integer | long | float | double | bigDecimal | geoPoint =>
    element.isTextual || element.isNumeric
  | string | text => true
  | boolean => element.isTextual || element == .boolean
  | date => element.isTextual || element ∈ [.timestamp, .date, .bigInt, .int]
  | blob => element.isTextual || element == .blob
  | inet => element.isTextual || element == .inet
  | uuid => element.isTextual || element ∈ [.uuid, .timeUuid]

@[simp] theorem ofName?_name (t : MapperTag) : ofName? t.name = some t := by
  cases t <;> decide

end MapperTag

/-- What the cells of a mapper are read as, with the options of that reading. -/
inductive MapperKind
  | integer
  | long
  | float
  | double
  /-- Decimal numbers with at most so many digits before and after the point. -/
  | bigDecimal (wholeDigits fractionDigits : UInt32)
  | string (caseSensitive : Bool)
  /-- Without an analyzer it is the one of the schema. -/
  | text (analyzer : Option Analyzer)
  | boolean
  /-- The texts of dates have the form of the pattern. -/
  | date (pattern : String)
  | blob
  | inet
  | uuid
  /-- The coordinates come from two columns, and geohashes have so many characters. -/
  | geoPoint (latitude longitude : String) (levels : UInt8)
  deriving DecidableEq

/-- The kind without its options. -/
def MapperKind.tag : MapperKind → MapperTag
  | integer => .integer
  | long => .long
  | float => .float
  | double => .double
  | bigDecimal .. => .bigDecimal
  | string _ => .string
  | text _ => .text
  | boolean => .boolean
  | date _ => .date
  | blob => .blob
  | inet => .inet
  | uuid => .uuid
  | geoPoint .. => .geoPoint

end ColumnIndex
