import ColumnIndex.Json.Scan
import ColumnIndex.Mapper.Draft
import ColumnIndex.Wire.Attribute

/-!
# Drafts of mappers in JSON

A draft is a JSON object whose tag is the name of the kind. Options that are not set are left out.
An attribute that the kind does not have is a fault.

## Main definitions

* `Mapper.Draft.toJson` — the object of a draft.
* `Mapper.Draft.ofJson` — the draft of an object.
* `Mapper.Draft.parse`, `Mapper.Draft.decode` — the draft of a text, without and with events.
-/
namespace ColumnIndex.Mapper

open Wire

/-! ## Writing -/

/-- The members for the options of a kind. -/
def Draft.Kind.members : Draft.Kind → List (String × Json)
  | bigDecimal whole fraction =>
    member? "integer_digits" (natJson ·.toNat) whole
      ++ member? "decimal_digits" (natJson ·.toNat) fraction
  | string caseSensitive => member? "case_sensitive" .bool caseSensitive
  | text analyzer => member? "analyzer" .text analyzer
  | date pattern => member? "pattern" .text pattern
  | geoPoint latitude longitude levels =>
    member? "latitude" .text latitude ++ member? "longitude" .text longitude
      ++ member? "max_levels" (natJson ·.toNat) levels
  | _ => []

/-- The object of a draft. -/
def Draft.toJson (d : Draft) : Json :=
  .object
    (("type", .text d.kind.tag.name) :: member? "indexed" .bool d.indexed
      ++ member? "sorted" .bool d.sorted ++ member? "column" .text d.column
      ++ member? "boost" singleJson d.boost ++ d.kind.members)

/-- The text of a draft. -/
def Draft.text (d : Draft) : String := d.toJson.compact

/-! ## Reading -/

/-- Whether the mapper has fields to search in. -/
def indexedAttribute : Attribute (Option Bool) := .optional "indexed" readBool

/-- Whether the mapper has fields to sort by. -/
def sortedAttribute : Attribute (Option Bool) := .optional "sorted" readBool

/-- The column that is read. -/
def columnAttribute : Attribute (Option String) := .optional "column" readText

/-- The boost of the fields. -/
def boostAttribute : Attribute (Option Single) := .optional "boost" readSingle

/-- The checks of the options that all mappers have. -/
def optionChecks : List (String × Reader Unit) :=
  [indexedAttribute.check, sortedAttribute.check, columnAttribute.check, boostAttribute.check]

/-- How the options of a kind are read: the checks of the attributes, and the kind of the
members. -/
structure KindReader where
  checks : List (String × Reader Unit)
  read : List (String × Json) → Except Fault Draft.Kind

/-- A kind without options of its own. -/
def plainReader (kind : Draft.Kind) : KindReader := ⟨[], fun _ => .ok kind⟩

/-- A kind with one option of its own. -/
def optionReader {α : Type} (a : Attribute α) (kind : α → Draft.Kind) : KindReader :=
  ⟨[a.check], fun members => (a.get members).map kind⟩

/-- Decimal numbers. -/
def bigDecimalReader : KindReader :=
  let whole := Attribute.optional "integer_digits" readWord
  let fraction := Attribute.optional "decimal_digits" readWord
  ⟨[whole.check, fraction.check],
    fun members => do pure (.bigDecimal (← whole.get members) (← fraction.get members))⟩

/-- Points on the globe. -/
def geoPointReader : KindReader :=
  let latitude := Attribute.optional "latitude" readText
  let longitude := Attribute.optional "longitude" readText
  let levels := Attribute.optional "max_levels" readByte
  ⟨[latitude.check, longitude.check, levels.check],
    fun members => do
      pure (.geoPoint (← latitude.get members) (← longitude.get members) (← levels.get members))⟩

/-- How the options of a kind are read. -/
def kindReader : MapperTag → KindReader
  | .integer => plainReader .integer
  | .long => plainReader .long
  | .float => plainReader .float
  | .double => plainReader .double
  | .bigDecimal => bigDecimalReader
  | .string => optionReader (.optional "case_sensitive" readBool) .string
  | .text => optionReader (.optional "analyzer" readText) .text
  | .boolean => plainReader .boolean
  | .date => optionReader (.optional "pattern" readText) .date
  | .blob => plainReader .blob
  | .inet => plainReader .inet
  | .uuid => plainReader .uuid
  | .geoPoint => geoPointReader

/-- The draft of the members of an object: the options of the kind are checked first, then those
that all mappers have. -/
def Draft.ofMembers (reader : KindReader) (members : List (String × Json)) :
    Except Fault Draft := do
  checkAll reader.checks members
  checkAll optionChecks members
  let kind ← reader.read members
  let indexed ← indexedAttribute.get members
  let sorted ← sortedAttribute.get members
  let column ← columnAttribute.get members
  let boost ← boostAttribute.get members
  pure ⟨indexed, sorted, column, boost, kind⟩

/-- The draft of an object. -/
def Draft.ofJson (j : Json) : Except Fault Draft := do
  let t ← Tagged.ofJson .mapper j (.tagMissing .mapper)
  match MapperTag.ofName? t.tag with
  | none => .error (.unknownTag .mapper t.tag)
  | some tag => do
    let reader := kindReader tag
    t.only .mapper ((optionChecks ++ reader.checks).map (·.1))
    t.within .mapper (Draft.ofMembers reader t.members)

/-- The draft of a text. -/
def Draft.parse (text : String) : Except Fault Draft := do
  let j ← (Json.parse text).mapError .malformed
  Draft.ofJson j

/-- The draft of a text; success is an event. -/
def Draft.decode (text : String) : Recorded Draft := do
  let d ← .ofExcept (Draft.parse text)
  .note (.jsonDecoded .mapper)
  pure d

end ColumnIndex.Mapper
