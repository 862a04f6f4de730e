import ColumnIndex.Geo.Distance
import ColumnIndex.Json.Token

/-!
# Faults of definitions in JSON

Mappers, schemas, conditions and searches are written in JSON as tagged objects with attributes.
A fault says what is wrong with a definition, from the text of the JSON on.

## Main definitions

* `Wire.Found` — what stands where something else is wanted.
* `Wire.Fault` — the faults.
* `Wire.Fault.message` — their wording.
-/
namespace ColumnIndex.Wire

/-- What stands where something else is wanted. -/
inductive Found
  | null
  | bool (b : Bool)
  | whole (i : Int)
  /-- A whole number that takes a type of 128 bits. -/
  | wide (i : Int) (type : String)
  | fraction (digits : String)
  | text (s : String)
  | list
  | object

/-- The wording of what was found. -/
def Found.message : Found → String
  | null => "null"
  | bool b => "boolean `" ++ (if b then "true" else "false") ++ "`"
  | whole i => "integer `" ++ Text.intText i ++ "`"
  | wide i type => "integer `" ++ Text.intText i ++ "` as " ++ type
  | fraction digits => "floating point `" ++ digits ++ "`"
  | text s => "string " ++ Text.quoted s
  | list => "sequence"
  | object => "map"

/-- What a JSON tree is found to be. -/
def Found.ofJson : Json → Found
  | .null => null
  | .bool b => bool b
  | .number (.whole i) => whole i
  | .number n => fraction (String.ofList n.chars)
  | .text s => text s
  | .list _ => list
  | .object _ => object

/-- What is defined by a tagged object. -/
inductive Subject
  | mapper
  | condition
  deriving DecidableEq

/-- The name of a subject. -/
def Subject.name : Subject → String
  | mapper => "mapper"
  | condition => "condition"

/-- What is wrong with a definition. -/
inductive Fault
  /-- The text is no JSON. -/
  | malformed (fault : Json.SyntaxFault)
  | missing (name : String)
  | repeated (name : String)
  | wrongType (found : Found) (wanted : String)
  | wrongNumber (found : Int) (wanted : String)
  | tooShort (length : Nat) (wanted : String)
  /-- An object stands where a literal is wanted. -/
  | objectLiteral
  /-- A text stands where a distance is wanted. -/
  | badDistance (fault : BadDistance)
  | tagMissing (subject : Subject)
  | tagNotText (subject : Subject) (found : Json)
  | notObject (subject : Subject) (found : Json)
  | unknownTag (subject : Subject) (tag : String)
  | unknownAttribute (subject : Subject) (tag name : String)
  /-- An attribute of a tagged object has a fault. -/
  | inside (subject : Subject) (tag : String) (fault : Fault)
  /-- A schema defines a field twice. -/
  | repeatedField (name : String)

/-- The wording of a fault. -/
def Fault.message : Fault → String
  | malformed fault => fault.message
  | missing name => "missing field `" ++ name ++ "`"
  | repeated name => "duplicate field `" ++ name ++ "`"
  | wrongType found wanted => "invalid type: " ++ found.message ++ ", expected " ++ wanted
  | wrongNumber found wanted =>
    "invalid value: integer `" ++ Text.intText found ++ "`, expected " ++ wanted
  | tooShort length wanted =>
    "invalid length " ++ Text.intText length ++ ", expected " ++ wanted
  | objectLiteral => "objects are not valid condition values"
  | badDistance fault => fault.message
  | tagMissing subject => "missing field `type` in " ++ subject.name
  | tagNotText subject found =>
    subject.name ++ " type must be a string, found " ++ found.compact
  | notObject subject found =>
    subject.name ++ " must be a JSON object, found " ++ found.compact
  | unknownTag subject tag => "unknown " ++ subject.name ++ " type '" ++ tag ++ "'"
  | unknownAttribute subject tag name =>
    "unknown attribute '" ++ name ++ "' in " ++ tag ++ " " ++ subject.name
  | inside subject tag fault =>
    "invalid " ++ tag ++ " " ++ subject.name ++ ": " ++ fault.message
  | repeatedField name => "duplicate field '" ++ name ++ "'"

instance : Reported Fault where
  report fault := ⟨.serialization, .json, fault.message⟩

end ColumnIndex.Wire
