import ColumnIndex.Json.Tree
import ColumnIndex.Number.Binary.Reader
import ColumnIndex.Value

/-!
# Values as JSON literals

JSON has its own kinds of values: null, booleans, numbers, texts and lists. Every value has a
literal form of these kinds. A number of single precision becomes the one of double precision
with the same shortest digits; what JSON has no kind for becomes its text, and so do infinities
and what is no number.

## Main definitions

* `Value.toJson` — the literal form as a JSON tree.
* `Value.ofJson?` — the value of a JSON tree; an object is no value.
* `Value.literal` — the value that is read back from the literal form.
* `Value.written` — the JSON tree that is written, where single precision keeps its own digits.
-/
namespace ColumnIndex

/-- The number of double precision with the same shortest digits. -/
def BinaryFloat.widen (x : Single) : Double :=
  (BinaryFloat.parse? (x.chars .plain)).getD x.convert

namespace Value

/-- The text of a scalar value as a JSON tree. -/
def textJson (v : Value) : Json :=
  match v.canonical? with
  | some s => .text s
  | none => .null

/-- A number as a JSON tree; one that is not finite is a text. -/
def doubleJson (x : Double) : Json :=
  if x.isFinite then .number (.double x) else .text x.plainText

mutual

/-- The literal form of a value. -/
def toJson : Value → Json
  | null => .null
  | bool b => .bool b
  | int i => .number (.whole i.toInt)
  | long i => .number (.whole i.toInt)
  | float x => doubleJson x.widen
  | double x => doubleJson x
  | list items => .list (itemsToJson items)
  | v => textJson v

/-- The literal forms of the items of a list. -/
def itemsToJson : List Value → List Json
  | [] => []
  | item :: items => toJson item :: itemsToJson items

end

mutual

/-- The JSON tree that is written for a value. -/
def written : Value → Json
  | null => .null
  | bool b => .bool b
  | int i => .number (.whole i.toInt)
  | long i => .number (.whole i.toInt)
  | float x => if x.isFinite then .number (.single x) else .text x.plainText
  | double x => doubleJson x
  | list items => .list (writtenItems items)
  | v => textJson v

/-- The JSON trees that are written for the items of a list. -/
def writtenItems : List Value → List Json
  | [] => []
  | item :: items => written item :: writtenItems items

end

/-- The value of a JSON number: a whole one is long if it fits, any other is double. -/
def ofNumber : Json.Number → Value
  | .whole i =>
    if -2 ^ 63 ≤ i ∧ i < 2 ^ 63 then long (Int64.ofInt i) else double (.ofInt i)
  | .double x => double x
  | .single x => double x.widen

mutual

/-- The value of a JSON tree, unless there is an object in it. -/
def ofJson? : Json → Option Value
  | .null => some null
  | .bool b => some (bool b)
  | .number n => some (ofNumber n)
  | .text s => some (text s)
  | .list items => (itemsOfJson? items).map list
  | .object _ => none

/-- The values of JSON trees, unless there is an object in one of them. -/
def itemsOfJson? : List Json → Option (List Value)
  | [] => some []
  | item :: items => do
    let value ← ofJson? item
    let values ← itemsOfJson? items
    pure (value :: values)

end

/-- A number as it is read back from its literal form. -/
def doubleLiteral (x : Double) : Value := if x.isFinite then double x else text x.plainText

mutual

/-- The value that is read back from the literal form. -/
def literal : Value → Value
  | null => null
  | bool b => bool b
  | int i => long i.toInt64
  | long i => long i
  | float x => doubleLiteral x.widen
  | double x => doubleLiteral x
  | text s => text s
  | list items => list (literals items)
  | v =>
    match v.canonical? with
    | some s => text s
    | none => null

/-- The values that are read back from the literal forms. -/
def literals : List Value → List Value
  | [] => []
  | item :: items => literal item :: literals items

end

end Value

end ColumnIndex
