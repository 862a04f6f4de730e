import ColumnIndex.Condition
import ColumnIndex.Geo.Geohash
import ColumnIndex.Mapper.Draft
import ColumnIndex.Value.Literal

/-!
# Drafts of conditions

A draft says what a condition is to be. Options that are not set have defaults, literals are in the
form that JSON gives back, and distances are texts. `Condition.Draft.build` finds the first thing
that is wrong with a draft.

## Main definitions

* `Condition.Draft` — the drafts.
* `Condition.Draft.term`, `Condition.Draft.matching`, `Condition.Draft.contains`,
  `Condition.Draft.withLower`, `Condition.Draft.withUpper` — drafts with literals.
* `Condition.Draft.same` — equality of drafts.
* `Condition.Draft.build` — the condition of a draft.
* `Condition.DraftFault` — what may be wrong with a draft.
-/
namespace ColumnIndex.Condition

/-! ## Drafts -/

/-- What a condition about one field is to be. -/
inductive Draft.Leaf
  | pattern (form : PatternForm) (field text : String)
  | fuzzy (field text : String) (maxEdits : Option UInt8)
      (prefixLength maxExpansions : Option UInt32) (transpositions : Option Bool)
  | literal (form : LiteralForm) (field : String) (value : Value)
  | phrase (field text : String) (slop : Option UInt32)
  | contains (field : String) (values : List Value)
  | range (field : String) (lower upper : Option Value) (includeLower includeUpper : Option Bool)
  | geoBox (field : String) (box : GeoBox)
  | geoDistance (field : String) (latitude longitude : Double) (maximum : String)
      (minimum : Option String)

/-- What a condition is to be, with its boost if one is set. -/
inductive Draft
  | all (boost : Option Single)
  | nothing (boost : Option Single)
  | boolean (boost : Option Single) (must should not : List Draft)
  | leaf (boost : Option Single) (leaf : Draft.Leaf)

namespace Draft

/-- The kind of a leaf. -/
def Leaf.tag : Leaf → ConditionTag
  | pattern form .. => form.tag
  | fuzzy .. => .fuzzy
  | literal form .. => form.tag
  | phrase .. => .phrase
  | contains .. => .contains
  | range .. => .range
  | geoBox .. => .geoBox
  | geoDistance .. => .geoDistance

/-- The kind of a draft. -/
def tag : Draft → ConditionTag
  | all _ => .all
  | nothing _ => .nothing
  | boolean .. => .boolean
  | leaf _ l => l.tag

/-- The draft with a boost. -/
def withBoost (boost : Single) : Draft → Draft
  | all _ => all (some boost)
  | nothing _ => nothing (some boost)
  | boolean _ must should not => boolean (some boost) must should not
  | leaf _ l => leaf (some boost) l

/-! ## Drafts with literals -/

/-- The value of the field is the given one. -/
def term (field : String) (value : Value) : Draft :=
  leaf none (.literal .term field value.literal)

/-- The value of the field has a term of the given one. -/
def matching (field : String) (value : Value) : Draft :=
  leaf none (.literal .matching field value.literal)

/-- The value of the field has a term of one of the given ones. -/
def contains (field : String) (values : List Value) : Draft :=
  leaf none (.contains field (values.map Value.literal))

/-- The value of the field is in a range, so far without bounds. -/
def range (field : String) : Draft :=
  leaf none (.range field none none none none)

/-- The draft of a range with a lower bound. -/
def withLower (value : Value) : Draft → Draft
  | leaf boost (.range field _ upper includeLower includeUpper) =>
    leaf boost (.range field (some value.literal) upper includeLower includeUpper)
  | d => d

/-- The draft of a range with an upper bound. -/
def withUpper (value : Value) : Draft → Draft
  | leaf boost (.range field lower _ includeLower includeUpper) =>
    leaf boost (.range field lower (some value.literal) includeLower includeUpper)
  | d => d

/-! ## Equality -/

/-- Whether two literals are both missing, or there and equal. -/
def sameLiteral : Option Value → Option Value → Bool
  | none, none => true
  | some v, some w => v.same w
  | _, _ => false

/-- Whether the edges of two boxes are equal. -/
def sameBox (a b : GeoBox) : Bool :=
  a.minLatitude.same b.minLatitude && a.maxLatitude.same b.maxLatitude
    && a.minLongitude.same b.minLongitude && a.maxLongitude.same b.maxLongitude

/-- Whether two leaves are equal. -/
def Leaf.same : Leaf → Leaf → Bool
  | pattern form field text, pattern form' field' text' =>
    form == form' && field == field' && text == text'
  | fuzzy field text edits start expansions transpositions,
    fuzzy field' text' edits' start' expansions' transpositions' =>
    field == field' && text == text' && edits == edits' && start == start'
      && expansions == expansions' && transpositions == transpositions'
  | literal form field value, literal form' field' value' =>
    form == form' && field == field' && value.same value'
  | phrase field text slop, phrase field' text' slop' =>
    field == field' && text == text' && slop == slop'
  | contains field values, contains field' values' =>
    field == field' && Value.sameItems values values'
  | range field lower upper includeLower includeUpper,
    range field' lower' upper' includeLower' includeUpper' =>
    field == field' && sameLiteral lower lower' && sameLiteral upper upper'
      && includeLower == includeLower' && includeUpper == includeUpper'
  | geoBox field box, geoBox field' box' => field == field' && sameBox box box'
  | geoDistance field x y maximum minimum, geoDistance field' x' y' maximum' minimum' =>
    field == field' && x.same x' && y.same y' && maximum == maximum' && minimum == minimum'
  | _, _ => false

mutual

/-- Whether two drafts are equal, numbers as numbers. -/
def same : Draft → Draft → Bool
  | all b, all b' => Mapper.sameBoost b b'
  | nothing b, nothing b' => Mapper.sameBoost b b'
  | boolean b must should not, boolean b' must' should' not' =>
    Mapper.sameBoost b b' && sameAll must must' && sameAll should should' && sameAll not not'
  | leaf b l, leaf b' l' => Mapper.sameBoost b b' && l.same l'
  | _, _ => false

/-- Whether two lists hold equal drafts in the same order. -/
def sameAll : List Draft → List Draft → Bool
  | [], [] => true
  | d :: ds, e :: es => same d e && sameAll ds es
  | _, _ => false

end

end Draft

/-! ## Faults -/

/-- What may be wrong with the draft of a condition. -/
inductive DraftFault
  | badBoost (tag : ConditionTag) (boost : Single)
  | blankText (tag : ConditionTag) (name : String)
  | nullValue (tag : ConditionTag) (name : String)
  | tooManyEdits (found : UInt8)
  | noExpansions
  | noValues
  | badLatitude (tag : ConditionTag) (found : Double)
  | badLongitude (tag : ConditionTag) (found : Double)
  | latitudeOrder
  | longitudeOrder
  | distance (fault : BadDistance)
  | distanceOrder (minimum maximum : Distance)

/-- The greatest number of edits of a fuzzy condition. -/
def maxEditsLimit : UInt8 := 2

/-- The wording of a fault. -/
def DraftFault.message : DraftFault → String
  | badBoost tag boost =>
    tag.name ++ " condition boost must be positive and finite, found " ++ boost.plainText
  | blankText tag name => tag.name ++ " condition requires a non-empty '" ++ name ++ "'"
  | nullValue tag name => tag.name ++ " condition requires a non-null '" ++ name ++ "'"
  | tooManyEdits found =>
    "fuzzy condition max_edits must be in 0..=" ++ Text.intText maxEditsLimit.toNat ++ ", found "
      ++ Text.intText found.toNat
  | noExpansions => "fuzzy condition max_expansions must be positive"
  | noValues => "contains condition requires at least one value"
  | badLatitude tag found =>
    tag.name ++ " condition latitude must be in [-90, 90], found " ++ found.plainText
  | badLongitude tag found =>
    tag.name ++ " condition longitude must be in [-180, 180], found " ++ found.plainText
  | latitudeOrder => "geo_bbox condition min_latitude must not exceed max_latitude"
  | longitudeOrder => "geo_bbox condition min_longitude must not exceed max_longitude"
  | distance fault => (report fault).message
  | distanceOrder minimum maximum =>
    "geo_distance condition min_distance " ++ minimum.text ++ " must be less than max_distance "
      ++ maximum.text

instance : Reported DraftFault where
  report fault := ⟨.schemaValidation, .condition, fault.message⟩

/-! ## Building -/

/-- The boost of a condition, which is the default one unless another is set. -/
def checkBoost (tag : ConditionTag) (boost : Option Single) : Except DraftFault Single :=
  let x := boost.getD defaultBoost
  if Mapper.isBoost x then .ok x else .error (.badBoost tag x)

/-- A text that is not blank. -/
def checkText (tag : ConditionTag) (name text : String) : Except DraftFault String :=
  if Text.isBlankText text then .error (.blankText tag name) else .ok text

/-- A value that is not null. -/
def checkValue (tag : ConditionTag) (name : String) (v : Value) : Except DraftFault Value :=
  if v.isNull then .error (.nullValue tag name) else .ok v

/-- Two coordinates of a point. -/
def checkPoint (tag : ConditionTag) (latitude longitude : Double) : Except DraftFault Unit :=
  if !Geo.isLatitude latitude then .error (.badLatitude tag latitude)
  else if !Geo.isLongitude longitude then .error (.badLongitude tag longitude)
  else .ok ()

/-- The edges of a box: coordinates in order. -/
def checkBox (box : GeoBox) : Except DraftFault Unit := do
  checkPoint .geoBox box.minLatitude box.minLongitude
  checkPoint .geoBox box.maxLatitude box.maxLongitude
  if box.maxLatitude.lt box.minLatitude then .error .latitudeOrder
  else if box.maxLongitude.lt box.minLongitude then .error .longitudeOrder
  else .ok ()

/-- The distance of a text. -/
def checkDistance (text : String) : Except DraftFault Distance :=
  (Distance.parse text).mapError .distance

/-- The least distance of a ring, which must be less than the greatest one. -/
def checkMinimum (maximum : Distance) : Option String → Except DraftFault (Option Distance)
  | none => .ok none
  | some text => do
    let minimum ← checkDistance text
    if maximum.meters.le minimum.meters then .error (.distanceOrder minimum maximum)
    else .ok (some minimum)

/-- The condition about one field. -/
def Draft.Leaf.build : Draft.Leaf → Except DraftFault Condition.Leaf
  | pattern form field text => do
    let field ← checkText form.tag "field" field
    let text ← checkText form.tag "value" text
    pure (.pattern form field text)
  | fuzzy field text maxEdits prefixLength maxExpansions transpositions =>
    let maxEdits := maxEdits.getD 2
    let maxExpansions := maxExpansions.getD 50
    if maxEditsLimit < maxEdits then .error (.tooManyEdits maxEdits)
    else if maxExpansions = 0 then .error .noExpansions
    else do
      let field ← checkText .fuzzy "field" field
      let text ← checkText .fuzzy "value" text
      pure (.fuzzy field text maxEdits (prefixLength.getD 0) maxExpansions
        (transpositions.getD true))
  | literal form field value => do
    let field ← checkText form.tag "field" field
    let value ← checkValue form.tag "value" value
    pure (.literal form field value)
  | phrase field text slop => do
    let field ← checkText .phrase "field" field
    let text ← checkText .phrase "value" text
    pure (.phrase field text (slop.getD 0))
  | contains field values =>
    if values.isEmpty then .error .noValues
    else do
      let values ← values.mapM (checkValue .contains "values")
      let field ← checkText .contains "field" field
      pure (.contains field values)
  | range field lower upper includeLower includeUpper => do
    let field ← checkText .range "field" field
    pure (.range field (lower.filter (!·.isNull)) (upper.filter (!·.isNull))
      (includeLower.getD false) (includeUpper.getD false))
  | geoBox field box => do
    checkBox box
    let field ← checkText .geoBox "field" field
    pure (.geoBox field box)
  | geoDistance field latitude longitude maximum minimum => do
    checkPoint .geoDistance latitude longitude
    let maximum ← checkDistance maximum
    let minimum ← checkMinimum maximum minimum
    let field ← checkText .geoDistance "field" field
    pure (.geoDistance field latitude longitude minimum maximum)

mutual

/-- The condition of a draft. -/
def Draft.build : Draft → Except DraftFault Condition
  | .all boost => do
    let boost ← checkBoost .all boost
    pure (.all boost)
  | .nothing boost => do
    let boost ← checkBoost .nothing boost
    pure (.nothing boost)
  | .boolean boost must should not => do
    let boost ← checkBoost .boolean boost
    let must ← Draft.buildAll must
    let should ← Draft.buildAll should
    let not ← Draft.buildAll not
    pure (.boolean boost must should not)
  | .leaf boost l => do
    let boost ← checkBoost l.tag boost
    let l ← l.build
    pure (.leaf boost l)

/-- The conditions of several drafts. -/
def Draft.buildAll : List Draft → Except DraftFault (List Condition)
  | [] => .ok []
  | d :: ds => do
    let c ← Draft.build d
    let cs ← Draft.buildAll ds
    pure (c :: cs)

end

end ColumnIndex.Condition
