import ColumnIndex.Engine.Query
import ColumnIndex.Geo.Distance
import ColumnIndex.Value

/-!
# Conditions

A condition says which rows a search is to find, in terms of the logical fields and without a
schema. Conditions are trees: boolean conditions combine others, and leaves are about one field.

## Main definitions

* `ConditionTag` — the kinds of conditions.
* `Condition.Leaf` — the conditions about one field.
* `Condition` — the trees.
* `Condition.nodeCount` — how many nodes a tree has.
-/
namespace ColumnIndex

/-- The kind of a condition. -/
inductive ConditionTag
  | all
  | nothing
  | boolean
  | wildcard
  | startsWith
  | regexp
  | fuzzy
  | term
  | matching
  | phrase
  | contains
  | range
  | geoBox
  | geoDistance
  deriving DecidableEq

namespace ConditionTag

/-- All kinds. -/
def every : List ConditionTag :=
  [all, nothing, boolean, wildcard, startsWith, regexp, fuzzy, term, matching, phrase, contains,
    range, geoBox, geoDistance]

/-- The name of a kind. -/
def name : ConditionTag → String
  | all => "all"
  | nothing => "none"
  | boolean => "boolean"
  | wildcard => "wildcard"
  | startsWith => "prefix"
  | regexp => "regexp"
  | fuzzy => "fuzzy"
  | term => "term"
  | matching => "match"
  | phrase => "phrase"
  | contains => "contains"
  | range => "range"
  | geoBox => "geo_bbox"
  | geoDistance => "geo_distance"

/-- The kind of a name. -/
def ofName? (name : String) : Option ConditionTag := every.find? (·.name == name)

@[simp] theorem ofName?_name (t : ConditionTag) : ofName? t.name = some t := by
  cases t <;> decide

end ConditionTag

/-- How a pattern describes texts. -/
inductive PatternForm
  | wildcard
  | startsWith
  | regexp
  deriving DecidableEq

/-- The kind of the conditions with a pattern. -/
def PatternForm.tag : PatternForm → ConditionTag
  | wildcard => .wildcard
  | startsWith => .startsWith
  | regexp => .regexp

/-- How a literal is compared: as one term, or in the terms of the field. -/
inductive LiteralForm
  | term
  | matching
  deriving DecidableEq

/-- The kind of the conditions with a literal. -/
def LiteralForm.tag : LiteralForm → ConditionTag
  | term => .term
  | matching => .matching

/-- A condition about one field. -/
inductive Condition.Leaf
  | pattern (form : PatternForm) (field text : String)
  | fuzzy (field text : String) (maxEdits : UInt8) (prefixLength maxExpansions : UInt32)
      (transpositions : Bool)
  | literal (form : LiteralForm) (field : String) (value : Value)
  | phrase (field text : String) (slop : UInt32)
  | contains (field : String) (values : List Value)
  | range (field : String) (lower upper : Option Value) (includeLower includeUpper : Bool)
  | geoBox (field : String) (box : GeoBox)
  | geoDistance (field : String) (latitude longitude : Double) (minimum : Option Distance)
      (maximum : Distance)

/-- A condition with its boost. -/
inductive Condition
  | all (boost : Single)
  | nothing (boost : Single)
  | boolean (boost : Single) (must should not : List Condition)
  | leaf (boost : Single) (leaf : Condition.Leaf)

namespace Condition

/-- The kind of a leaf. -/
def Leaf.tag : Leaf → ConditionTag
  | pattern form .. => form.tag
  | fuzzy .. => .fuzzy
  | literal form .. => form.tag
  | phrase .. => .phrase
  | contains .. => .contains
  | range .. => .range
  | geoBox .. => .geoBox
  | geoDistance .. => .geoDistance

/-- The field of a leaf. -/
def Leaf.field : Leaf → String
  | pattern _ field _ => field
  | fuzzy field .. => field
  | literal _ field _ => field
  | phrase field .. => field
  | contains field _ => field
  | range field .. => field
  | geoBox field _ => field
  | geoDistance field .. => field

/-- The condition that all rows meet. -/
def everything : Condition := all defaultBoost

/-- The boost of a condition. -/
def boost : Condition → Single
  | all boost => boost
  | nothing boost => boost
  | boolean boost .. => boost
  | leaf boost _ => boost

/-- The field of a condition that is a leaf. -/
def field? : Condition → Option String
  | leaf _ l => some l.field
  | _ => none

mutual

/-- How many nodes there are in a tree. -/
def nodeCount : Condition → Nat
  | boolean _ must should not => 1 + nodeCounts must + nodeCounts should + nodeCounts not
  | _ => 1

/-- How many nodes there are in several trees. -/
def nodeCounts : List Condition → Nat
  | [] => 0
  | c :: cs => nodeCount c + nodeCounts cs

end

end Condition

end ColumnIndex
