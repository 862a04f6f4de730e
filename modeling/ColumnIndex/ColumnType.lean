import ColumnIndex.Error
import ColumnIndex.Text.Blank
import ColumnIndex.Text.Lowercase

/-!
# Column types

The types that the store gives to its columns: scalar ones, and lists and sets of a type. The
name of a type is read in any case and with blanks around its parts.

## Main definitions

* `ColumnType` — the types.
* `ColumnType.text` — the name of a type.
* `ColumnType.parse` — the type of a name.
-/
namespace ColumnIndex

/-- The type of a column whose cells are no collections. -/
inductive ScalarType
  | ascii
  | text
  | varchar
  | tinyInt
  | smallInt
  | int
  | bigInt
  | counter
  | varInt
  | float
  | double
  | decimal
  | boolean
  | timestamp
  | date
  | blob
  | uuid
  | timeUuid
  | inet
  deriving DecidableEq

namespace ScalarType

/-- All scalar types. -/
def all : List ScalarType :=
  [ascii, text, varchar, tinyInt, smallInt, int, bigInt, counter, varInt, float, double, decimal,
    boolean, timestamp, date, blob, uuid, timeUuid, inet]

/-- The name of a scalar type. -/
def name : ScalarType → String
  | ascii => "ascii"
  | text => "text"
  | varchar => "varchar"
  | tinyInt => "tinyint"
  | smallInt => "smallint"
  | int => "int"
  | bigInt => "bigint"
  | counter => "counter"
  | varInt => "varint"
  | float => "float"
  | double => "double"
  | decimal => "decimal"
  | boolean => "boolean"
  | timestamp => "timestamp"
  | date => "date"
  | blob => "blob"
  | uuid => "uuid"
  | timeUuid => "timeuuid"
  | inet => "inet"

/-- The scalar type of a name. -/
def ofName? (name : String) : Option ScalarType := all.find? (·.name == name)

/-- Whether the cells hold texts. -/
def isTextual (t : ScalarType) : Bool := t ∈ [ascii, text, varchar]

/-- Whether the cells hold numbers. -/
def isNumeric (t : ScalarType) : Bool :=
  t ∈ [tinyInt, smallInt, int, bigInt, counter, varInt, float, double, decimal]

end ScalarType

/-- The type of a column. -/
inductive ColumnType
  | scalar (t : ScalarType)
  | list (element : ColumnType)
  | set (element : ColumnType)
  deriving DecidableEq

/-- A name of no column type. -/
structure UnknownColumnType where
  name : String

instance : Reported UnknownColumnType where
  report fault :=
    ⟨.schemaValidation, .schema, "unknown column type '" ++ fault.name ++ "'"⟩

namespace ColumnType

/-- The name of a type. -/
def text : ColumnType → String
  | scalar t => t.name
  | list element => "list<" ++ element.text ++ ">"
  | set element => "set<" ++ element.text ++ ">"

/-- The type of what the cells hold when all collections are opened. -/
def element : ColumnType → ScalarType
  | scalar t => t
  | list inner => inner.element
  | set inner => inner.element

/-- Whether the cells hold collections. -/
def isCollection : ColumnType → Bool
  | scalar _ => false
  | list _ | set _ => true

/-- Whether the cells hold texts themselves. -/
def isTextual : ColumnType → Bool
  | scalar t => t.isTextual
  | list _ | set _ => false

/-- Whether the cells hold numbers themselves. -/
def isNumeric : ColumnType → Bool
  | scalar t => t.isNumeric
  | list _ | set _ => false

/-- What follows the word, if the characters begin with it. -/
def after? : List Char → List Char → Option (List Char)
  | [], cs => some cs
  | _ :: _, [] => none
  | w :: ws, c :: cs => if w = c then after? ws cs else none

/-- The characters between the angle brackets after the name of a kind of collections. -/
def inside? (kind cs : List Char) : Option (List Char) := do
  let rest ← after? kind cs
  let inner ← after? ['<'] (Text.trimStart rest)
  if inner.getLast? = some '>' then some inner.dropLast else none

theorem after?_length {word cs rest : List Char} (h : after? word cs = some rest) :
    rest.length + word.length = cs.length := by
  induction word generalizing cs with
  | nil => simp_all [after?]
  | cons w ws ih => cases cs <;> grind [after?]

theorem inside?_length {kind cs inner : List Char} (h : inside? kind cs = some inner) :
    inner.length < cs.length := by
  simp only [inside?, bind, Option.bind_eq_some_iff] at h
  obtain ⟨rest, h1, body, h2, h3⟩ := h
  have l1 := after?_length h1
  have l2 := after?_length h2
  have l3 : (Text.trimStart rest).length ≤ rest.length := (List.dropWhile_sublist _).length_le
  split at h3
  · simp only [Option.some.injEq] at h3
    subst h3
    simp only [List.length_dropLast, List.length_cons, List.length_nil] at *
    omega
  · contradiction

/-- The characters without the blanks around them, in lower case. -/
def folded (cs : List Char) : List Char := (Text.trimChars cs).map Char.toLower

theorem folded_length (cs : List Char) : (folded cs).length ≤ cs.length := by
  have h1 : (Text.trimStart cs).length ≤ cs.length := (List.dropWhile_sublist _).length_le
  have h2 : (Text.trimEnd (Text.trimStart cs)).length ≤ (Text.trimStart cs).length := by
    have := (List.dropWhile_sublist (l := (Text.trimStart cs).reverse) Text.isBlank).length_le
    simpa [Text.trimEnd] using this
  simp only [folded, Text.trimChars, List.length_map]
  omega

/-- The type that the characters name. -/
def parseChars (cs : List Char) : Except UnknownColumnType ColumnType :=
  match _hl : inside? ['l', 'i', 's', 't'] (folded cs) with
  | some inner => (parseChars inner).map list
  | none =>
    match _hs : inside? ['s', 'e', 't'] (folded cs) with
    | some inner => (parseChars inner).map set
    | none =>
      match ScalarType.ofName? (String.ofList (folded cs)) with
      | some t => .ok (scalar t)
      | none => .error ⟨String.ofList (folded cs)⟩
termination_by cs.length
decreasing_by
  · exact Nat.lt_of_lt_of_le (inside?_length _hl) (folded_length cs)
  · exact Nat.lt_of_lt_of_le (inside?_length _hs) (folded_length cs)

/-- The type of a name. -/
def parse (name : String) : Except UnknownColumnType ColumnType := parseChars name.toList

end ColumnType

end ColumnIndex
