import ColumnIndex.Value.Literal
import ColumnIndex.Wire.Fault

/-!
# Attributes

An attribute is a member of a JSON object that has a name and a form. The members of an object are
checked in the order in which they stand; only then is it found out which ones are missing.

## Main definitions

* `Wire.Reader` — a form of values.
* `Wire.Attribute` — a named value that must be there, or may be missing.
* `Wire.checkAll` — the first member whose value has not the form of its attribute.
* `Wire.Tagged` — an object with a tag.
-/
namespace ColumnIndex.Wire

/-! ## Forms of values -/

/-- How a value of some form is read from JSON. -/
abbrev Reader (α : Type) := Json → Except Fault α

/-- The fault of a value that has not the form that is wanted. -/
def unfit {α : Type} (wanted : String) (j : Json) : Except Fault α :=
  .error (.wrongType (.ofJson j) wanted)

/-- A truth value. -/
def readBool : Reader Bool
  | .bool b => .ok b
  | j => unfit "a boolean" j

/-- A text. -/
def readText : Reader String
  | .text s => .ok s
  | j => unfit "a string" j

/-- A number of single precision. -/
def readSingle : Reader Single
  | .number (.whole i) => .ok (.ofInt i)
  | .number (.double x) => .ok x.convert
  | .number (.single x) => .ok x
  | j => unfit "f32" j

/-- A number of double precision. -/
def readDouble : Reader Double
  | .number (.whole i) => .ok (.ofInt i)
  | .number (.double x) => .ok x
  | .number (.single x) => .ok x.widen
  | j => unfit "f64" j

/-- A natural number below a limit. -/
def readNat (limit : Nat) (wanted : String) : Reader Nat
  | .number (.whole i) =>
    if 0 ≤ i ∧ i < limit then .ok i.toNat else .error (.wrongNumber i wanted)
  | j => unfit wanted j

/-- A byte. -/
def readByte : Reader UInt8 := fun j => (readNat (2 ^ 8) "u8" j).map UInt8.ofNat

/-- A natural number of thirty-two bits. -/
def readWord : Reader UInt32 := fun j => (readNat (2 ^ 32) "u32" j).map UInt32.ofNat

/-- A distance, written as a text. -/
def readDistance : Reader Distance := fun j => do
  let text ← readText j
  (Distance.parse text).mapError .badDistance

/-- The items of a list. -/
def readList : Reader (List Json)
  | .list items => .ok items
  | j => unfit "a sequence" j

/-- A literal. -/
def readLiteral : Reader Value := fun j =>
  match Value.ofJson? j with
  | some v => .ok v
  | none => .error .objectLiteral

/-- A list of literals. -/
def readLiterals : Reader (List Value) := fun j => do
  let items ← readList j
  items.mapM readLiteral

/-- A value that may be null. -/
def readOptional {α : Type} (read : Reader α) : Reader (Option α)
  | .null => .ok none
  | j => (read j).map some

/-! ## Attributes -/

/-- A named member of an object: how its value is read, and what comes of it if it is missing. -/
structure Attribute (α : Type) where
  name : String
  read : Reader α
  absent : Except Fault α

namespace Attribute

variable {α : Type}

/-- An attribute that must be there. -/
def required (name : String) (read : Reader α) : Attribute α := ⟨name, read, .error (.missing name)⟩

/-- An attribute that may be missing or null. -/
def optional (name : String) (read : Reader α) : Attribute (Option α) :=
  ⟨name, readOptional read, .ok none⟩

/-- The value of the attribute among the members of an object. -/
def get (a : Attribute α) (members : List (String × Json)) : Except Fault α :=
  match members.lookup a.name with
  | some j => a.read j
  | none => a.absent

/-- The name of the attribute, with a check of its form. -/
def check (a : Attribute α) : String × Reader Unit := (a.name, fun j => (a.read j).map fun _ => ())

end Attribute

/-- Checks the members of an object in order. A member without a check passes. -/
def checkAll (checks : List (String × Reader Unit)) : List (String × Json) → Except Fault Unit
  | [] => .ok ()
  | (name, value) :: members =>
    match checks.lookup name with
    | none => checkAll checks members
    | some check => do
      check value
      checkAll checks members

/-- The name of the first member that is neither the tag nor in the list. -/
def unknown? (names : List String) (members : List (String × Json)) : Option String :=
  (members.find? fun member => member.1 != "type" && !names.contains member.1).map (·.1)

/-! ## Tagged objects -/

/-- An object with a tag. -/
structure Tagged where
  tag : String
  members : List (String × Json)

/-- The tag of an object with its members. -/
def Tagged.ofJson (subject : Subject) (j : Json) (untagged : Fault) : Except Fault Tagged :=
  match j with
  | .object members =>
    match members.lookup "type" with
    | some (.text tag) => .ok ⟨tag, members⟩
    | some other => .error (.tagNotText subject other)
    | none => .error (.tagMissing subject)
  | _ => .error untagged

/-- The members, if all of them are known. -/
def Tagged.only (t : Tagged) (subject : Subject) (names : List String) : Except Fault Unit :=
  match unknown? names t.members with
  | some name => .error (.unknownAttribute subject t.tag name)
  | none => .ok ()

/-- An outcome inside a tagged object. -/
def Tagged.within {α : Type} (t : Tagged) (subject : Subject) (outcome : Except Fault α) :
    Except Fault α :=
  outcome.mapError (.inside subject t.tag)

/-! ## Writing -/

/-- A member that is left out if it has no value. -/
def member? {α : Type} (name : String) (write : α → Json) (value : Option α) :
    List (String × Json) :=
  (value.map fun a => (name, write a)).toList

/-- A number of single precision as a JSON tree. -/
def singleJson (x : Single) : Json := .number (.single x)

/-- A number of double precision as a JSON tree. -/
def doubleJson (x : Double) : Json := .number (.double x)

/-- A natural number as a JSON tree. -/
def natJson (n : Nat) : Json := .number (.whole n)

end ColumnIndex.Wire
