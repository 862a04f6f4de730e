import ColumnIndex.Number.Binary.Layout
import ColumnIndex.Text.Quoted

/-!
# Fields and documents

What the search engine receives for a row: a document, which is a list of fields. A field has a
name, a payload and a kind that says how the engine keeps it. Two kinds of fields may share a
name.

## Main definitions

* `FieldValue` — the payloads.
* `DocValues` — how the payloads of a field are kept for sorting.
* `FieldKind`, `Field` — the fields.
* `Document` — the fields of a row.
-/
namespace ColumnIndex

/-- The payload of a field, or of a term in a query. -/
inductive FieldValue
  | int (i : Int32)
  | long (i : Int64)
  | float (x : Single)
  | double (x : Double)
  | str (s : String)
  | geoPoint (latitude longitude : Double)

namespace FieldValue

/-- Whether the payload is a number. -/
def isNumeric : FieldValue → Bool
  | int _ | long _ | float _ | double _ => true
  | str _ | geoPoint .. => false

/-- The text of a payload that is one. -/
def asText? : FieldValue → Option String
  | str s => some s
  | _ => none

/-- The payload in the text of a query. -/
def text : FieldValue → String
  | int i => Text.intText i.toInt
  | long i => Text.intText i.toInt
  | float x => x.plainText
  | double x => x.plainText
  | str s => s
  | geoPoint latitude longitude => latitude.plainText ++ "," ++ longitude.plainText

/-- How a message shows a payload. -/
def shown : FieldValue → String
  | int i => "Int(" ++ Text.intText i.toInt ++ ")"
  | long i => "Long(" ++ Text.intText i.toInt ++ ")"
  | float x => "Float(" ++ x.shownText ++ ")"
  | double x => "Double(" ++ x.shownText ++ ")"
  | str s => "Str(" ++ Text.quoted s ++ ")"
  | geoPoint latitude longitude =>
    "GeoPoint \x7b latitude: " ++ latitude.shownText ++ ", longitude: " ++ longitude.shownText
      ++ " \x7d"

end FieldValue

/-- How the payloads of a field are kept for sorting: numbers or texts, one or many for a
document. -/
inductive DocValues
  | numeric
  | sortedNumeric
  | sorted
  | sortedSet
  deriving DecidableEq

namespace DocValues

/-- The name that the engine uses. -/
def text : DocValues → String
  | numeric => "NUMERIC"
  | sortedNumeric => "SORTED_NUMERIC"
  | sorted => "SORTED"
  | sortedSet => "SORTED_SET"

/-- The way to keep many payloads for a document. -/
def multiValued : DocValues → DocValues
  | numeric | sortedNumeric => sortedNumeric
  | sorted | sortedSet => sortedSet

/-- Whether the payloads are numbers. -/
def isNumeric : DocValues → Bool
  | numeric | sortedNumeric => true
  | sorted | sortedSet => false

end DocValues

/-- How the engine keeps a field. -/
inductive FieldKind
  | intPoint
  | longPoint
  | floatPoint
  | doublePoint
  /-- A text as one term. -/
  | keyword
  /-- A text in the terms of the named analyzer. -/
  | text (analyzer : String)
  | latLonPoint
  /-- The cell of a grid, as a text. -/
  | geoHash
  | docValues (type : DocValues)
  deriving DecidableEq

/-- A field. The index only searches and sorts, so no field is stored. -/
structure Field where
  name : String
  value : FieldValue
  kind : FieldKind
  stored : Bool
  boost : Single

/-- The boost of whatever does not set one. -/
def defaultBoost : Single := .ofInt 1

namespace Field

/-- A field to search in. -/
def indexed (name : String) (value : FieldValue) (kind : FieldKind) (boost : Single) : Field :=
  ⟨name, value, kind, false, boost⟩

/-- A field to sort by, which has no boost of its own. -/
def docValues (name : String) (value : FieldValue) (type : DocValues) : Field :=
  ⟨name, value, .docValues type, false, defaultBoost⟩

/-- How the payload is kept for sorting, if the field is one to sort by. -/
def docValues? (f : Field) : Option DocValues :=
  match f.kind with
  | .docValues type => some type
  | _ => none

/-- Whether the engine cuts the payload into terms. -/
def isTokenized (f : Field) : Bool :=
  match f.kind with
  | .text _ => true
  | _ => false

/-- The payload, if it is a number. -/
def numericValue? (f : Field) : Option FieldValue :=
  if f.value.isNumeric then some f.value else none

end Field

/-- The fields of a row, in order. -/
structure Document where
  fields : List Field

namespace Document

/-- The document without fields. -/
def empty : Document := ⟨[]⟩

/-- The document with one more field. -/
def add (d : Document) (field : Field) : Document := ⟨d.fields ++ [field]⟩

/-- The document with more fields. -/
def append (d : Document) (fields : List Field) : Document := ⟨d.fields ++ fields⟩

/-- The fields of a name, in order. -/
def named (d : Document) (name : String) : List Field := d.fields.filter (·.name == name)

/-- How many fields there are. -/
def size (d : Document) : Nat := d.fields.length

/-- Whether there is no field. -/
def isEmpty (d : Document) : Bool := d.fields.isEmpty

end Document

end ColumnIndex
