import ColumnIndex.Calendar.Timestamp
import ColumnIndex.Network.Address
import ColumnIndex.Number.Binary.Layout
import ColumnIndex.Number.Decimal
import ColumnIndex.Text.Quoted
import ColumnIndex.Uuid

/-!
# Values

A value is the content of a cell, as the store hands it over, or a literal in a condition. A cell
may be empty, and it may hold a list of values.

## Main definitions

* `Value` — the values.
* `Value.Tag`, `Value.Family` — the kinds of values, fine and coarse.
* `Value.same` — equality of values: numbers by what they denote, timestamps by their instant.
* `Value.canonical?` — the text of a scalar value.
* `Value.shown` — a value in a message.
-/
namespace ColumnIndex

/-- The content of a cell, or a literal. -/
inductive Value
  | null
  | bool (b : Bool)
  | int (i : Int32)
  | long (i : Int64)
  | float (x : Single)
  | double (x : Double)
  | decimal (d : Decimal)
  | text (s : String)
  | date (d : Date)
  | timestamp (t : Timestamp)
  | blob (bytes : List UInt8)
  | uuid (u : Uuid)
  | inet (a : Address)
  | list (items : List Value)

namespace Value

/-! ## Kinds -/

/-- The kind of a value. -/
inductive Tag
  | null
  | bool
  | int
  | long
  | float
  | double
  | decimal
  | text
  | date
  | timestamp
  | blob
  | uuid
  | inet
  | list
  deriving DecidableEq

/-- The number of a kind, from 1 on. -/
def Tag.number (t : Tag) : Nat := t.ctorIdx + 1

/-- The name of a kind. -/
def Tag.label : Tag → String
  | null => "Null"
  | bool => "Bool"
  | int => "Int"
  | long => "Long"
  | float => "Float"
  | double => "Double"
  | decimal => "Decimal"
  | text => "Text"
  | date => "Date"
  | timestamp => "Timestamp"
  | blob => "Blob"
  | uuid => "Uuid"
  | inet => "Inet"
  | list => "List"

/-- The kind of a value. -/
def tag : Value → Tag
  | null => .null
  | bool _ => .bool
  | int _ => .int
  | long _ => .long
  | float _ => .float
  | double _ => .double
  | decimal _ => .decimal
  | text _ => .text
  | date _ => .date
  | timestamp _ => .timestamp
  | blob _ => .blob
  | uuid _ => .uuid
  | inet _ => .inet
  | list _ => .list

/-- Kinds that are read alike. -/
inductive Family
  | numeric
  | textual
  | temporal
  | binary
  | identifier
  | bool
  | collection
  | null
  deriving DecidableEq

/-- The name of a family. -/
def Family.name : Family → String
  | numeric => "numeric"
  | textual => "textual"
  | temporal => "temporal"
  | binary => "binary"
  | identifier => "identifier"
  | bool => "bool"
  | collection => "collection"
  | null => "null"

/-- The family of a value. -/
def family : Value → Family
  | int _ | long _ | float _ | double _ | decimal _ => .numeric
  | text _ => .textual
  | date _ | timestamp _ => .temporal
  | blob _ => .binary
  | uuid _ | inet _ => .identifier
  | bool _ => .bool
  | list _ => .collection
  | null => .null

/-- Whether the cell is empty. -/
def isNull : Value → Bool
  | null => true
  | _ => false

theorem isNull_iff {v : Value} : v.isNull ↔ v = null := by
  cases v <;> simp [isNull]

/-- Whether the value is a number. -/
def isNumeric (v : Value) : Bool := v.family == .numeric

/-- Whether the value is a list. -/
def isList : Value → Bool
  | list _ => true
  | _ => false

/-- Whether the value is a single one. -/
def isScalar (v : Value) : Bool := !v.isNull && !v.isList

/-- The text of a value that is one. -/
def asText? : Value → Option String
  | text s => some s
  | _ => none

/-- The items of a value that is a list. -/
def asList? : Value → Option (List Value)
  | list items => some items
  | _ => none

/-! ## Equality -/

mutual

/-- Whether two values of one kind are equal: floating-point numbers as such, decimal numbers by
the rational number they denote, timestamps by their instant. -/
def same : Value → Value → Bool
  | null, null => true
  | bool a, bool b => a == b
  | int a, int b => a == b
  | long a, long b => a == b
  | float a, float b => BinaryFloat.same a b
  | double a, double b => BinaryFloat.same a b
  | decimal a, decimal b => a.toRat == b.toRat
  | text a, text b => a == b
  | date a, date b => a == b
  | timestamp a, timestamp b => a.instant == b.instant
  | blob a, blob b => a == b
  | uuid a, uuid b => a == b
  | inet a, inet b => a == b
  | list as, list bs => sameItems as bs
  | _, _ => false

/-- Whether two lists hold equal values in the same order. -/
def sameItems : List Value → List Value → Bool
  | [], [] => true
  | a :: as, b :: bs => same a b && sameItems as bs
  | _, _ => false

end

/-! ## Texts -/

/-- The text of a scalar value. An empty cell has none, and a list has one for each item. -/
def canonical? : Value → Option String
  | null | list _ => none
  | bool b => some (if b then "true" else "false")
  | int i => some (Text.intText i.toInt)
  | long i => some (Text.intText i.toInt)
  | float x => some x.plainText
  | double x => some x.plainText
  | decimal d => some d.text
  | text s => some s
  | date d => some d.text
  | timestamp t => some t.text
  | blob bytes => some (String.ofList (Text.hexOfBytes bytes))
  | uuid u => some u.text
  | inet a => some a.text

/-- Texts between brackets. -/
def bracketed (items : List String) : String := "[" ++ ", ".intercalate items ++ "]"

/-- How a message shows the content of a value that is no list. -/
def payload : Value → String
  | null | list _ => ""
  | bool b => if b then "true" else "false"
  | int i => Text.intText i.toInt
  | long i => Text.intText i.toInt
  | float x => x.shownText
  | double x => x.shownText
  | decimal d => d.text
  | text s => Text.quoted s
  | date d => d.text
  | timestamp t => t.longText
  | blob bytes => bracketed (bytes.map fun b => Text.intText b.toNat)
  | uuid u => u.text
  | inet a => a.text

mutual

/-- How a message shows a value: its kind, and its content in brackets. -/
def shown : Value → String
  | null => "Null"
  | list items => "List(" ++ bracketed (shownItems items) ++ ")"
  | v => v.tag.label ++ "(" ++ payload v ++ ")"

/-- How a message shows the items of a list. -/
def shownItems : List Value → List String
  | [] => []
  | item :: items => shown item :: shownItems items

end

end Value

end ColumnIndex
