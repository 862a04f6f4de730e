import ColumnIndex.Condition.Draft
import ColumnIndex.Json.Scan
import ColumnIndex.Metrics.Event
import ColumnIndex.Wire.Attribute

/-!
# Drafts of conditions in JSON

A draft is a JSON object whose tag is the name of the kind. Options that are not set are left out;
the lists of a boolean condition are always written. An attribute that the kind does not have is a
fault, at any depth.

## Main definitions

* `Condition.Draft.toJson` — the object of a draft.
* `Condition.Draft.ofJson` — the draft of an object.
* `Condition.Draft.parse`, `Condition.Draft.decode` — the draft of a text, without and with events.
-/
namespace ColumnIndex.Condition

open Wire

/-! ## Writing -/

/-- The edges of a box as members of an object. -/
def boxMembers (box : GeoBox) : List (String × Json) :=
  [("min_latitude", doubleJson box.minLatitude), ("max_latitude", doubleJson box.maxLatitude),
    ("min_longitude", doubleJson box.minLongitude), ("max_longitude", doubleJson box.maxLongitude)]

/-- A leaf as members of an object. -/
def Draft.Leaf.members : Draft.Leaf → List (String × Json)
  | pattern _ field text => [("field", .text field), ("value", .text text)]
  | fuzzy field text maxEdits prefixLength maxExpansions transpositions =>
    [("field", .text field), ("value", .text text)]
      ++ member? "max_edits" (natJson ·.toNat) maxEdits
      ++ member? "prefix_length" (natJson ·.toNat) prefixLength
      ++ member? "max_expansions" (natJson ·.toNat) maxExpansions
      ++ member? "transpositions" .bool transpositions
  | literal _ field value => [("field", .text field), ("value", value.written)]
  | phrase field text slop =>
    [("field", .text field), ("value", .text text)] ++ member? "slop" (natJson ·.toNat) slop
  | contains field values => [("field", .text field), ("values", .list (Value.writtenItems values))]
  | range field lower upper includeLower includeUpper =>
    ("field", .text field) :: member? "lower" Value.written lower
      ++ member? "upper" Value.written upper ++ member? "include_lower" .bool includeLower
      ++ member? "include_upper" .bool includeUpper
  | geoBox field box => ("field", .text field) :: boxMembers box
  | geoDistance field latitude longitude maximum minimum =>
    [("field", .text field), ("latitude", doubleJson latitude), ("longitude", doubleJson longitude),
      ("max_distance", .text maximum)]
      ++ member? "min_distance" .text minimum

/-- The tag as a member of an object. -/
def tagMember (tag : ConditionTag) : String × Json := ("type", .text tag.name)

mutual

/-- The object of a draft. -/
def Draft.toJson : Draft → Json
  | .all boost => .object (tagMember .all :: member? "boost" singleJson boost)
  | .nothing boost => .object (tagMember .nothing :: member? "boost" singleJson boost)
  | .boolean boost must should not =>
    .object
      (tagMember .boolean :: member? "boost" singleJson boost
        ++ [("must", .list (Draft.listToJson must)), ("should", .list (Draft.listToJson should)),
          ("not", .list (Draft.listToJson not))])
  | .leaf boost l =>
    .object (tagMember l.tag :: l.members ++ member? "boost" singleJson boost)

/-- The objects of several drafts. -/
def Draft.listToJson : List Draft → List Json
  | [] => []
  | d :: ds => Draft.toJson d :: Draft.listToJson ds

end

/-- The text of a draft. -/
def Draft.text (d : Draft) : String := d.toJson.compact

/-! ## Reading leaves -/

/-- The boost of a condition. -/
def boostAttribute : Attribute (Option Single) := .optional "boost" readSingle

/-- The field of a leaf. -/
def fieldAttribute : Attribute String := .required "field" readText

/-- The text of a leaf. -/
def textAttribute : Attribute String := .required "value" readText

/-- How leaves of a kind are read: the checks of the attributes, and the leaf of the members. -/
structure LeafReader where
  checks : List (String × Reader Unit)
  read : List (String × Json) → Except Fault Draft.Leaf

/-- Leaves with a pattern. -/
def patternReader (form : PatternForm) : LeafReader :=
  ⟨[fieldAttribute.check, textAttribute.check],
    fun members => do
      pure (.pattern form (← fieldAttribute.get members) (← textAttribute.get members))⟩

/-- Leaves with a text and a tolerance. -/
def fuzzyReader : LeafReader :=
  let maxEdits := Attribute.optional "max_edits" readByte
  let prefixLength := Attribute.optional "prefix_length" readWord
  let maxExpansions := Attribute.optional "max_expansions" readWord
  let transpositions := Attribute.optional "transpositions" readBool
  ⟨[fieldAttribute.check, textAttribute.check, maxEdits.check, prefixLength.check,
      maxExpansions.check, transpositions.check],
    fun members => do
      pure (.fuzzy (← fieldAttribute.get members) (← textAttribute.get members)
        (← maxEdits.get members) (← prefixLength.get members) (← maxExpansions.get members)
        (← transpositions.get members))⟩

/-- Leaves with a literal. -/
def literalReader (form : LiteralForm) : LeafReader :=
  let value := Attribute.required "value" readLiteral
  ⟨[fieldAttribute.check, value.check],
    fun members => do
      pure (.literal form (← fieldAttribute.get members) (← value.get members))⟩

/-- Leaves with a phrase. -/
def phraseReader : LeafReader :=
  let slop := Attribute.optional "slop" readWord
  ⟨[fieldAttribute.check, textAttribute.check, slop.check],
    fun members => do
      pure (.phrase (← fieldAttribute.get members) (← textAttribute.get members)
        (← slop.get members))⟩

/-- Leaves with a list of literals. -/
def containsReader : LeafReader :=
  let values := Attribute.required "values" readLiterals
  ⟨[fieldAttribute.check, values.check],
    fun members => do
      pure (.contains (← fieldAttribute.get members) (← values.get members))⟩

/-- Leaves with bounds. -/
def rangeReader : LeafReader :=
  let lower := Attribute.optional "lower" readLiteral
  let upper := Attribute.optional "upper" readLiteral
  let includeLower := Attribute.optional "include_lower" readBool
  let includeUpper := Attribute.optional "include_upper" readBool
  ⟨[fieldAttribute.check, lower.check, upper.check, includeLower.check, includeUpper.check],
    fun members => do
      pure (.range (← fieldAttribute.get members) (← lower.get members) (← upper.get members)
        (← includeLower.get members) (← includeUpper.get members))⟩

/-- Leaves with a box. -/
def geoBoxReader : LeafReader :=
  let minLatitude := Attribute.required "min_latitude" readDouble
  let maxLatitude := Attribute.required "max_latitude" readDouble
  let minLongitude := Attribute.required "min_longitude" readDouble
  let maxLongitude := Attribute.required "max_longitude" readDouble
  ⟨[fieldAttribute.check, minLatitude.check, maxLatitude.check, minLongitude.check,
      maxLongitude.check],
    fun members => do
      pure (.geoBox (← fieldAttribute.get members)
        ⟨← minLatitude.get members, ← maxLatitude.get members, ← minLongitude.get members,
          ← maxLongitude.get members⟩)⟩

/-- Leaves with a ring around a point. -/
def geoDistanceReader : LeafReader :=
  let latitude := Attribute.required "latitude" readDouble
  let longitude := Attribute.required "longitude" readDouble
  let maximum := Attribute.required "max_distance" readText
  let minimum := Attribute.optional "min_distance" readText
  ⟨[fieldAttribute.check, latitude.check, longitude.check, maximum.check, minimum.check],
    fun members => do
      pure (.geoDistance (← fieldAttribute.get members) (← latitude.get members)
        (← longitude.get members) (← maximum.get members) (← minimum.get members))⟩

/-! ## Reading -/

/-- How a kind of conditions is read. -/
inductive Form
  | constant (make : Option Single → Draft)
  | boolean
  | leaf (reader : LeafReader)

/-- The form of a kind. -/
def form : ConditionTag → Form
  | .all => .constant .all
  | .nothing => .constant .nothing
  | .boolean => .boolean
  | .wildcard => .leaf (patternReader .wildcard)
  | .startsWith => .leaf (patternReader .startsWith)
  | .regexp => .leaf (patternReader .regexp)
  | .fuzzy => .leaf fuzzyReader
  | .term => .leaf (literalReader .term)
  | .matching => .leaf (literalReader .matching)
  | .phrase => .leaf phraseReader
  | .contains => .leaf containsReader
  | .range => .leaf rangeReader
  | .geoBox => .leaf geoBoxReader
  | .geoDistance => .leaf geoDistanceReader

/-- The names of the attributes of a form, without the tag. -/
def Form.attributes : Form → List String
  | constant _ => ["boost"]
  | boolean => ["boost", "must", "should", "not"]
  | leaf reader => reader.checks.map (·.1) ++ ["boost"]

/-- The draft of a leaf. -/
def leafOfMembers (reader : LeafReader) (members : List (String × Json)) : Except Fault Draft := do
  checkAll (boostAttribute.check :: reader.checks) members
  let l ← reader.read members
  let boost ← boostAttribute.get members
  pure (.leaf boost l)

/-- The parts of a boolean condition. -/
structure BooleanParts where
  boost : Option Single := none
  must : List Draft := []
  should : List Draft := []
  not : List Draft := []

mutual

/-- The draft of an object. -/
def Draft.ofJson (j : Json) : Except Fault Draft :=
  match j with
  | .object members => do
    let t ← Tagged.ofJson .condition j (.notObject .condition j)
    match ConditionTag.ofName? t.tag with
    | none => .error (.unknownTag .condition t.tag)
    | some tag => do
      t.only .condition (form tag).attributes
      t.within .condition
        (match form tag with
        | .constant make => (boostAttribute.get members).map make
        | .boolean => do
          let parts ← booleanOfMembers {} members
          pure (.boolean parts.boost parts.must parts.should parts.not)
        | .leaf reader => leafOfMembers reader members)
  | _ => .error (.notObject .condition j)

/-- The drafts of several objects. -/
def Draft.listOfJson : List Json → Except Fault (List Draft)
  | [] => .ok []
  | j :: js => do
    let d ← Draft.ofJson j
    let ds ← Draft.listOfJson js
    pure (d :: ds)

/-- The parts of a boolean condition after more members of its object. -/
def booleanOfMembers (parts : BooleanParts) : List (String × Json) → Except Fault BooleanParts
  | [] => .ok parts
  | (name, value) :: members => do
    let list : Except Fault (List Draft) :=
      match value with
      | .list items => Draft.listOfJson items
      | _ => unfit "a sequence" value
    let parts ←
      match name with
      | "boost" => do pure { parts with boost := ← boostAttribute.read value }
      | "must" => do pure { parts with must := ← list }
      | "should" => do pure { parts with should := ← list }
      | "not" => do pure { parts with not := ← list }
      | _ => pure parts
    booleanOfMembers parts members

end

/-- The draft of a text. -/
def Draft.parse (text : String) : Except Fault Draft := do
  let j ← (Json.parse text).mapError .malformed
  Draft.ofJson j

/-- The draft of a text; success is an event. -/
def Draft.decode (text : String) : Recorded Draft := do
  let d ← .ofExcept (Draft.parse text)
  .note (.jsonDecoded .condition)
  pure d

end ColumnIndex.Condition
