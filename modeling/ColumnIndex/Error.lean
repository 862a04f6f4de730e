import ColumnIndex.Text.Quoted

/-!
# Reported errors

Each layer of the index has its own type of faults, which says what is wrong. What a caller
receives is an error of one shape: a class that says what went wrong, an origin that says which
layer noticed, and a message.

## Main definitions

* `ErrorClass`, `ErrorOrigin` — the classes and the origins.
* `IndexError` — an error as it is reported.
* `Reported` — the types of faults that are reported as errors.
-/
namespace ColumnIndex

/-- What went wrong. -/
inductive ErrorClass
  | coercion
  | schemaValidation
  | compilation
  | serialization
  | configuration
  deriving DecidableEq

/-- The classes in their order. -/
def ErrorClass.all : List ErrorClass :=
  [coercion, schemaValidation, compilation, serialization, configuration]

/-- The name of a class in a report. -/
def ErrorClass.text : ErrorClass → String
  | coercion => "coercion"
  | schemaValidation => "schema_validation"
  | compilation => "compilation"
  | serialization => "serialization"
  | configuration => "configuration"

/-- The name of a class in a dump of an error. -/
def ErrorClass.shown : ErrorClass → String
  | coercion => "Coercion"
  | schemaValidation => "SchemaValidation"
  | compilation => "Compilation"
  | serialization => "Serialization"
  | configuration => "Configuration"

/-- The layer that noticed. -/
inductive ErrorOrigin
  | value
  | mapper
  | schema
  | condition
  | query
  | json
  | config
  deriving DecidableEq

/-- The origins in their order. -/
def ErrorOrigin.all : List ErrorOrigin := [value, mapper, schema, condition, query, json, config]

/-- The name of an origin in a report. -/
def ErrorOrigin.text : ErrorOrigin → String
  | value => "value"
  | mapper => "mapper"
  | schema => "schema"
  | condition => "condition"
  | query => "query"
  | json => "json"
  | config => "config"

/-- The name of an origin in a dump of an error. -/
def ErrorOrigin.shown : ErrorOrigin → String
  | value => "Value"
  | mapper => "Mapper"
  | schema => "Schema"
  | condition => "Condition"
  | query => "Query"
  | json => "Json"
  | config => "Config"

/-- An error as a caller receives it. -/
structure IndexError where
  errorClass : ErrorClass
  origin : ErrorOrigin
  message : String
  deriving DecidableEq

namespace IndexError

/-- The message alone. -/
def text (e : IndexError) : String := e.message

/-- Whether a raw value was rejected. -/
def isCoercion (e : IndexError) : Bool := e.errorClass == .coercion

/-- Whether a condition could not be compiled. -/
def isCompilation (e : IndexError) : Bool := e.errorClass == .compilation

/-- The message with the origin and the class in front. -/
def textWithClass (e : IndexError) : String :=
  e.origin.text ++ ":" ++ e.errorClass.text ++ ": " ++ e.message

/-- A dump of the error. -/
def shown (e : IndexError) : String :=
  "IndexError \x7b class: " ++ e.errorClass.shown ++ ", origin: " ++ e.origin.shown
    ++ ", message: " ++ Text.quoted e.message ++ " \x7d"

end IndexError

/-- The faults of a type are reported as errors. -/
class Reported (ε : Type) where
  report : ε → IndexError

export Reported (report)

instance : Reported IndexError := ⟨id⟩

end ColumnIndex
