import ColumnIndex.Condition.Draft
import ColumnIndex.Proofs.DraftOptions
import ColumnIndex.Proofs.Outcome

/-!
# Which drafts of conditions are built

A draft of a condition is built exactly if each of its nodes makes sense. What is built has the
shape of the draft, with defaults for the options that are not set, and each of its nodes makes
sense too.

## Main definitions

* `Condition.Draft.Valid` — the drafts of which each node makes sense.
* `Condition.Draft.Gives` — the condition that has the shape of a draft.
* `Condition.Sound` — the conditions of which each node makes sense.

Main statement: `Condition.Draft.build_iff_valid`.
-/
namespace ColumnIndex

open Outcome

/-! ## Boxes and distances -/

/-- The edges of a box are coordinates in order. -/
structure GeoBox.IsProper (box : GeoBox) : Prop where
  minLatitude : Geo.IsWithin 90 box.minLatitude
  maxLatitude : Geo.IsWithin 90 box.maxLatitude
  minLongitude : Geo.IsWithin 180 box.minLongitude
  maxLongitude : Geo.IsWithin 180 box.maxLongitude
  latitudes : box.minLatitude.toRat ≤ box.maxLatitude.toRat
  longitudes : box.minLongitude.toRat ≤ box.maxLongitude.toRat

/-- The number of a distance is finite and not below zero. -/
def Distance.IsProper (d : Distance) : Prop := d.value.isFinite ∧ 0 ≤ d.value.toRat

/-- Only proper distances are read. -/
theorem Distance.isProper_of_parse {text : String} {d : Distance}
    (h : Distance.parse text = .ok d) : d.IsProper := by
  unfold Distance.parse Distance.parse? at h
  split at h
  · rename_i d' hd
    cases h
    simp only [Option.bind_eq_bind, Option.bind_eq_some_iff, Option.ite_none_right_eq_some,
      Option.some.injEq, Bool.and_eq_true, Bool.not_eq_true'] at hd
    obtain ⟨value, -, unit, -, ⟨hfinite, hsign⟩, rfl⟩ := hd
    refine ⟨hfinite, not_lt.1 fun hneg => ?_⟩
    rw [(BinaryFloat.lt_zero_iff hfinite).2 hneg] at hsign
    cases hsign
  · cases h

/-- A proper distance has a number of meters, be it an infinite one. -/
theorem Distance.isNaN_meters {d : Distance} (h : d.IsProper) : d.meters.isNaN = false := by
  have hunit : d.unit.inMeters.isFinite := by
    cases d.unit <;> decide
  exact BinaryFloat.isNaN_mul h.1 hunit

namespace Condition

/-! ## What makes sense -/

/-- Whether what a leaf is to be makes sense. -/
def Draft.Leaf.Valid : Draft.Leaf → Prop
  | pattern _ field text => Text.HasContent field ∧ Text.HasContent text
  | fuzzy field text maxEdits _ maxExpansions _ =>
    Text.HasContent field ∧ Text.HasContent text ∧ maxEdits.getD 2 ≤ 2 ∧
      maxExpansions.getD 50 ≠ 0
  | literal _ field value => Text.HasContent field ∧ value ≠ .null
  | phrase field text _ => Text.HasContent field ∧ Text.HasContent text
  | contains field values => Text.HasContent field ∧ values ≠ [] ∧ ∀ v ∈ values, v ≠ .null
  | range field .. => Text.HasContent field
  | geoBox field box => Text.HasContent field ∧ box.IsProper
  | geoDistance field latitude longitude maximum minimum =>
    Text.HasContent field ∧ Geo.IsWithin 90 latitude ∧ Geo.IsWithin 180 longitude ∧
      ∃ most, Distance.parse maximum = .ok most ∧
        ∀ text ∈ minimum, ∃ least, Distance.parse text = .ok least ∧
          least.meters.lt most.meters

/-- Whether each node of a draft makes sense. -/
inductive Draft.Valid : Draft → Prop
  | all {boost} : (∀ x ∈ boost, x.IsPositive) → Valid (.all boost)
  | nothing {boost} : (∀ x ∈ boost, x.IsPositive) → Valid (.nothing boost)
  | boolean {boost must should not} : (∀ x ∈ boost, x.IsPositive) → (∀ d ∈ must, Valid d) →
    (∀ d ∈ should, Valid d) → (∀ d ∈ not, Valid d) → Valid (.boolean boost must should not)
  | leaf {boost l} : (∀ x ∈ boost, x.IsPositive) → l.Valid → Valid (.leaf boost l)

/-- Whether a leaf makes sense. -/
def Leaf.Sound : Leaf → Prop
  | pattern _ field text => Text.HasContent field ∧ Text.HasContent text
  | fuzzy field text maxEdits _ maxExpansions _ =>
    Text.HasContent field ∧ Text.HasContent text ∧ maxEdits ≤ 2 ∧ maxExpansions ≠ 0
  | literal _ field value => Text.HasContent field ∧ value ≠ .null
  | phrase field text _ => Text.HasContent field ∧ Text.HasContent text
  | contains field values => Text.HasContent field ∧ values ≠ [] ∧ ∀ v ∈ values, v ≠ .null
  | range field lower upper _ _ =>
    Text.HasContent field ∧ lower ≠ some .null ∧ upper ≠ some .null
  | geoBox field box => Text.HasContent field ∧ box.IsProper
  | geoDistance field latitude longitude minimum maximum =>
    Text.HasContent field ∧ Geo.IsWithin 90 latitude ∧ Geo.IsWithin 180 longitude ∧
      maximum.IsProper ∧ ∀ least ∈ minimum, least.IsProper ∧ least.meters.lt maximum.meters

/-- Whether each node of a condition makes sense. -/
inductive Sound : Condition → Prop
  | all {boost} : boost.IsPositive → Sound (.all boost)
  | nothing {boost} : boost.IsPositive → Sound (.nothing boost)
  | boolean {boost must should not} : boost.IsPositive → (∀ c ∈ must, Sound c) →
    (∀ c ∈ should, Sound c) → (∀ c ∈ not, Sound c) → Sound (.boolean boost must should not)
  | leaf {boost l} : boost.IsPositive → l.Sound → Sound (.leaf boost l)

/-! ## Shapes -/

/-- A bound, which is left out if it is empty. -/
def present : Option Value → Option Value
  | some .null => none
  | bound => bound

/-- The leaf that a draft gives: options that are not set have their defaults, empty bounds are
left out, and texts of distances are read. -/
inductive Draft.Leaf.Gives : Draft.Leaf → Condition.Leaf → Prop
  | pattern {form field text} : Gives (.pattern form field text) (.pattern form field text)
  | fuzzy {field text maxEdits prefixLength maxExpansions transpositions} :
    Gives (.fuzzy field text maxEdits prefixLength maxExpansions transpositions)
      (.fuzzy field text (maxEdits.getD 2) (prefixLength.getD 0) (maxExpansions.getD 50)
        (transpositions.getD true))
  | literal {form field value} : Gives (.literal form field value) (.literal form field value)
  | phrase {field text slop} : Gives (.phrase field text slop) (.phrase field text (slop.getD 0))
  | contains {field values} : Gives (.contains field values) (.contains field values)
  | range {field lower upper includeLower includeUpper} :
    Gives (.range field lower upper includeLower includeUpper)
      (.range field (present lower) (present upper) (includeLower.getD false)
        (includeUpper.getD false))
  | geoBox {field box} : Gives (.geoBox field box) (.geoBox field box)
  | geoDistance {field latitude longitude maximum minimum most least} :
    Distance.parse maximum = .ok most →
    Option.Rel (fun text d => Distance.parse text = .ok d) minimum least →
    Gives (.geoDistance field latitude longitude maximum minimum)
      (.geoDistance field latitude longitude least most)

/-- The condition that a draft gives, node by node and child by child. A boost that is not set is
the default one. -/
inductive Draft.Gives : Draft → Condition → Prop
  | all {boost} : Gives (.all boost) (.all (boost.getD defaultBoost))
  | nothing {boost} : Gives (.nothing boost) (.nothing (boost.getD defaultBoost))
  | boolean {boost must should not musts shoulds nots} : List.Forall₂ Gives must musts →
    List.Forall₂ Gives should shoulds → List.Forall₂ Gives not nots →
    Gives (.boolean boost must should not)
      (.boolean (boost.getD defaultBoost) musts shoulds nots)
  | leaf {boost l l'} : l.Gives l' → Gives (.leaf boost l) (.leaf (boost.getD defaultBoost) l')

/-! ## Single checks -/

theorem checkBoost_eq_ok {tag : ConditionTag} {boost : Option Single} {x : Single} :
    checkBoost tag boost = .ok x ↔
      (∀ y ∈ boost, y.IsPositive) ∧ boost.getD defaultBoost = x := by
  rw [← Mapper.isBoost_getD_iff]
  exact ite_ok_eq_ok

theorem checkText_eq_ok {tag : ConditionTag} {name text t : String} :
    checkText tag name text = .ok t ↔ Text.HasContent text ∧ text = t := by
  rw [checkText, ite_error_eq_ok, Except.ok.injEq, Bool.not_eq_true,
    Text.isBlankText_eq_false_iff]

theorem checkValue_eq_ok {tag : ConditionTag} {name : String} {v w : Value} :
    checkValue tag name v = .ok w ↔ v ≠ .null ∧ v = w := by
  rw [checkValue, ite_error_eq_ok, Except.ok.injEq, Value.isNull_iff]

theorem mapM_checkValue_eq_ok {tag : ConditionTag} {name : String} {vs ws : List Value} :
    vs.mapM (checkValue tag name) = .ok ws ↔ (∀ v ∈ vs, v ≠ .null) ∧ vs = ws := by
  induction vs generalizing ws with
  | nil => simp [pure_eq_ok]
  | cons v vs ih =>
    simp only [List.mapM_cons, bind_eq_ok, pure_eq_ok, checkValue_eq_ok, ih, List.forall_mem_cons]
    constructor
    · rintro ⟨_, ⟨hv, rfl⟩, _, ⟨hvs, rfl⟩, rfl⟩
      exact ⟨⟨hv, hvs⟩, rfl⟩
    · rintro ⟨⟨hv, hvs⟩, rfl⟩
      exact ⟨v, ⟨hv, rfl⟩, vs, ⟨hvs, rfl⟩, rfl⟩

theorem checkPoint_eq_ok {tag : ConditionTag} {latitude longitude : Double} {u : Unit} :
    checkPoint tag latitude longitude = .ok u ↔
      Geo.IsWithin 90 latitude ∧ Geo.IsWithin 180 longitude := by
  rw [checkPoint, ite_error_eq_ok, ite_error_eq_ok, ← Geo.isLatitude_iff, ← Geo.isLongitude_iff]
  simp

theorem checkBox_eq_ok {box : GeoBox} {u : Unit} : checkBox box = .ok u ↔ box.IsProper := by
  have hexceeds {low high : Double} {limit : Rat} (hlow : Geo.IsWithin limit low)
      (hhigh : Geo.IsWithin limit high) : high.lt low ↔ ¬ low.toRat ≤ high.toRat := by
    rw [BinaryFloat.lt_iff hhigh.1 hlow.1, not_le]
  simp only [checkBox, bind_eq_ok, checkPoint_eq_ok, ite_error_eq_ok]
  constructor
  · rintro ⟨-, hleast, -, hmost, hlatitudes, hlongitudes, -⟩
    rw [hexceeds hleast.1 hmost.1, not_not] at hlatitudes
    rw [hexceeds hleast.2 hmost.2, not_not] at hlongitudes
    exact ⟨hleast.1, hmost.1, hleast.2, hmost.2, hlatitudes, hlongitudes⟩
  · intro h
    refine ⟨(), ⟨h.minLatitude, h.minLongitude⟩, (), ⟨h.maxLatitude, h.maxLongitude⟩, ?_, ?_,
      trivial⟩
    · exact (hexceeds h.minLatitude h.maxLatitude).not.2 (not_not.2 h.latitudes)
    · exact (hexceeds h.minLongitude h.maxLongitude).not.2 (not_not.2 h.longitudes)

theorem checkDistance_eq_ok {text : String} {d : Distance} :
    checkDistance text = .ok d ↔ Distance.parse text = .ok d :=
  mapError_eq_ok

theorem checkMinimum_eq_ok {most : Distance} (hmost : most.IsProper) {minimum : Option String}
    {least : Option Distance} :
    checkMinimum most minimum = .ok least ↔
      Option.Rel (fun text d => Distance.parse text = .ok d) minimum least ∧
        ∀ d ∈ least, d.meters.lt most.meters := by
  cases minimum with
  | none =>
    constructor
    · intro h
      cases h
      exact ⟨.none, by simp⟩
    · rintro ⟨⟨⟩, -⟩
      rfl
  | some text =>
    have hbelow {d : Distance} (hd : Distance.parse text = .ok d) :
        d.meters.lt most.meters ↔ ¬most.meters.le d.meters := by
      rw [Bool.not_eq_true]
      exact BinaryFloat.lt_iff_not_le (Distance.isNaN_meters (Distance.isProper_of_parse hd))
        (Distance.isNaN_meters hmost)
    simp only [checkMinimum, bind_eq_ok, checkDistance_eq_ok, ite_error_eq_ok]
    constructor
    · rintro ⟨d, hd, horder, h⟩
      cases h
      refine ⟨.some hd, fun d' hd' => ?_⟩
      cases hd'
      exact (hbelow hd).2 horder
    · rintro ⟨hrel, horder⟩
      cases hrel with
      | some hd => exact ⟨_, hd, (hbelow hd).1 (horder _ rfl), rfl⟩

/-! ## Leaves -/

theorem filter_eq_present (bound : Option Value) : bound.filter (!·.isNull) = present bound := by
  cases bound with
  | none => rfl
  | some v => cases v <;> rfl

theorem present_ne_null (bound : Option Value) : present bound ≠ some .null := by
  cases bound with
  | none => nofun
  | some v => cases v <;> simp [present]

namespace Draft.Leaf

variable {l : Condition.Leaf} {field text : String}

theorem build_pattern_eq_ok {form : PatternForm} :
    (pattern form field text).build = .ok l ↔
      (pattern form field text).Valid ∧ (pattern form field text).Gives l := by
  simp only [build, bind_eq_ok, pure_eq_ok, checkText_eq_ok, Valid]
  constructor
  · rintro ⟨_, ⟨hfield, rfl⟩, _, ⟨htext, rfl⟩, rfl⟩
    exact ⟨⟨hfield, htext⟩, .pattern⟩
  · rintro ⟨⟨hfield, htext⟩, ⟨⟩⟩
    exact ⟨_, ⟨hfield, rfl⟩, _, ⟨htext, rfl⟩, rfl⟩

theorem build_fuzzy_eq_ok {maxEdits : Option UInt8} {prefixLength maxExpansions : Option UInt32}
    {transpositions : Option Bool} :
    (fuzzy field text maxEdits prefixLength maxExpansions transpositions).build = .ok l ↔
      (fuzzy field text maxEdits prefixLength maxExpansions transpositions).Valid ∧
        (fuzzy field text maxEdits prefixLength maxExpansions transpositions).Gives l := by
  simp only [build, ite_error_eq_ok, bind_eq_ok, pure_eq_ok, checkText_eq_ok, Valid]
  constructor
  · rintro ⟨hedits, hexpansions, _, ⟨hfield, rfl⟩, _, ⟨htext, rfl⟩, rfl⟩
    exact ⟨⟨hfield, htext, UInt8.not_lt.1 hedits, hexpansions⟩, .fuzzy⟩
  · rintro ⟨⟨hfield, htext, hedits, hexpansions⟩, ⟨⟩⟩
    exact ⟨UInt8.not_lt.2 hedits, hexpansions, _, ⟨hfield, rfl⟩, _, ⟨htext, rfl⟩, rfl⟩

theorem build_literal_eq_ok {form : LiteralForm} {value : Value} :
    (literal form field value).build = .ok l ↔
      (literal form field value).Valid ∧ (literal form field value).Gives l := by
  simp only [build, bind_eq_ok, pure_eq_ok, checkText_eq_ok, checkValue_eq_ok, Valid]
  constructor
  · rintro ⟨_, ⟨hfield, rfl⟩, _, ⟨hvalue, rfl⟩, rfl⟩
    exact ⟨⟨hfield, hvalue⟩, .literal⟩
  · rintro ⟨⟨hfield, hvalue⟩, ⟨⟩⟩
    exact ⟨_, ⟨hfield, rfl⟩, _, ⟨hvalue, rfl⟩, rfl⟩

theorem build_phrase_eq_ok {slop : Option UInt32} :
    (phrase field text slop).build = .ok l ↔
      (phrase field text slop).Valid ∧ (phrase field text slop).Gives l := by
  simp only [build, bind_eq_ok, pure_eq_ok, checkText_eq_ok, Valid]
  constructor
  · rintro ⟨_, ⟨hfield, rfl⟩, _, ⟨htext, rfl⟩, rfl⟩
    exact ⟨⟨hfield, htext⟩, .phrase⟩
  · rintro ⟨⟨hfield, htext⟩, ⟨⟩⟩
    exact ⟨_, ⟨hfield, rfl⟩, _, ⟨htext, rfl⟩, rfl⟩

theorem build_contains_eq_ok {values : List Value} :
    (contains field values).build = .ok l ↔
      (contains field values).Valid ∧ (contains field values).Gives l := by
  simp only [build, ite_error_eq_ok, bind_eq_ok, pure_eq_ok, checkText_eq_ok,
    mapM_checkValue_eq_ok, Valid]
  constructor
  · rintro ⟨hempty, _, ⟨hvalues, rfl⟩, _, ⟨hfield, rfl⟩, rfl⟩
    exact ⟨⟨hfield, by simpa using hempty, hvalues⟩, .contains⟩
  · rintro ⟨⟨hfield, hempty, hvalues⟩, ⟨⟩⟩
    exact ⟨by simpa using hempty, _, ⟨hvalues, rfl⟩, _, ⟨hfield, rfl⟩, rfl⟩

theorem build_range_eq_ok {lower upper : Option Value} {includeLower includeUpper : Option Bool} :
    (range field lower upper includeLower includeUpper).build = .ok l ↔
      (range field lower upper includeLower includeUpper).Valid ∧
        (range field lower upper includeLower includeUpper).Gives l := by
  simp only [build, bind_eq_ok, pure_eq_ok, checkText_eq_ok, filter_eq_present, Valid]
  constructor
  · rintro ⟨_, ⟨hfield, rfl⟩, rfl⟩
    exact ⟨hfield, .range⟩
  · rintro ⟨hfield, ⟨⟩⟩
    exact ⟨_, ⟨hfield, rfl⟩, rfl⟩

theorem build_geoBox_eq_ok {box : GeoBox} :
    (geoBox field box).build = .ok l ↔
      (geoBox field box).Valid ∧ (geoBox field box).Gives l := by
  simp only [build, bind_eq_ok, pure_eq_ok, checkText_eq_ok, checkBox_eq_ok, Valid]
  constructor
  · rintro ⟨_, hbox, _, ⟨hfield, rfl⟩, rfl⟩
    exact ⟨⟨hfield, hbox⟩, .geoBox⟩
  · rintro ⟨⟨hfield, hbox⟩, ⟨⟩⟩
    exact ⟨(), hbox, _, ⟨hfield, rfl⟩, rfl⟩

theorem build_geoDistance_eq_ok {latitude longitude : Double} {maximum : String}
    {minimum : Option String} :
    (geoDistance field latitude longitude maximum minimum).build = .ok l ↔
      (geoDistance field latitude longitude maximum minimum).Valid ∧
        (geoDistance field latitude longitude maximum minimum).Gives l := by
  simp only [build, bind_eq_ok, pure_eq_ok, checkText_eq_ok, checkPoint_eq_ok,
    checkDistance_eq_ok, Valid]
  constructor
  · rintro ⟨_, hpoint, most, hmost, least, hleast, _, ⟨hfield, rfl⟩, rfl⟩
    obtain ⟨hrel, horder⟩ := (checkMinimum_eq_ok (Distance.isProper_of_parse hmost)).1 hleast
    refine ⟨⟨hfield, hpoint.1, hpoint.2, most, hmost, ?_⟩, .geoDistance hmost hrel⟩
    intro text htext
    cases htext
    cases hrel with
    | some hd => exact ⟨_, hd, horder _ rfl⟩
  · rintro ⟨⟨hfield, hlatitude, hlongitude, most', hmost', horder⟩, hgives⟩
    cases hgives with
    | geoDistance hmost hrel =>
      obtain rfl := Except.ok.inj (hmost.symm.trans hmost')
      refine ⟨(), ⟨hlatitude, hlongitude⟩, _, hmost, _, ?_, _, ⟨hfield, rfl⟩, rfl⟩
      rw [checkMinimum_eq_ok (Distance.isProper_of_parse hmost)]
      refine ⟨hrel, fun d hd => ?_⟩
      cases hd
      cases hrel with
      | some hparse =>
        obtain ⟨least, hleast, hbelow⟩ := horder _ rfl
        rwa [← Except.ok.inj (hparse.symm.trans hleast)] at hbelow

/-- A leaf is built exactly if it makes sense, and then as the one that the draft gives. -/
theorem build_eq_ok {d : Draft.Leaf} : d.build = .ok l ↔ d.Valid ∧ d.Gives l := by
  cases d with
  | pattern => exact build_pattern_eq_ok
  | fuzzy => exact build_fuzzy_eq_ok
  | literal => exact build_literal_eq_ok
  | phrase => exact build_phrase_eq_ok
  | contains => exact build_contains_eq_ok
  | range => exact build_range_eq_ok
  | geoBox => exact build_geoBox_eq_ok
  | geoDistance => exact build_geoDistance_eq_ok

end Draft.Leaf

/-- A draft that makes sense gives a leaf that does. -/
theorem Draft.Leaf.Valid.exists_gives {d : Draft.Leaf} (h : d.Valid) :
    ∃ l, d.Gives l ∧ l.Sound := by
  cases d with
  | pattern form field text => exact ⟨_, .pattern, h⟩
  | fuzzy field text maxEdits prefixLength maxExpansions transpositions => exact ⟨_, .fuzzy, h⟩
  | literal form field value => exact ⟨_, .literal, h⟩
  | phrase field text slop => exact ⟨_, .phrase, h⟩
  | contains field values => exact ⟨_, .contains, h⟩
  | range field lower upper includeLower includeUpper =>
    exact ⟨_, .range, h, present_ne_null lower, present_ne_null upper⟩
  | geoBox field box => exact ⟨_, .geoBox, h⟩
  | geoDistance field latitude longitude maximum minimum =>
    obtain ⟨hfield, hlatitude, hlongitude, most, hmost, horder⟩ := h
    have hproper := Distance.isProper_of_parse hmost
    cases minimum with
    | none =>
      exact ⟨_, .geoDistance hmost .none, hfield, hlatitude, hlongitude, hproper, by simp⟩
    | some text =>
      obtain ⟨least, hleast, hbelow⟩ := horder text rfl
      refine ⟨_, .geoDistance hmost (.some hleast), hfield, hlatitude, hlongitude, hproper, ?_⟩
      intro d hd
      cases hd
      exact ⟨Distance.isProper_of_parse hleast, hbelow⟩

/-! ## Trees -/

mutual

/-- A draft is built exactly if each of its nodes makes sense, and then as the condition that it
gives. -/
theorem Draft.build_eq_ok : ∀ {d : Draft} {c : Condition}, d.build = .ok c ↔ d.Valid ∧ d.Gives c
  | .all boost, c => by
    simp only [build, bind_eq_ok, pure_eq_ok, checkBoost_eq_ok]
    constructor
    · rintro ⟨_, ⟨hboost, rfl⟩, rfl⟩
      exact ⟨.all hboost, .all⟩
    · rintro ⟨hvalid, ⟨⟩⟩
      cases hvalid with
      | all hboost => exact ⟨_, ⟨hboost, rfl⟩, rfl⟩
  | .nothing boost, c => by
    simp only [build, bind_eq_ok, pure_eq_ok, checkBoost_eq_ok]
    constructor
    · rintro ⟨_, ⟨hboost, rfl⟩, rfl⟩
      exact ⟨.nothing hboost, .nothing⟩
    · rintro ⟨hvalid, ⟨⟩⟩
      cases hvalid with
      | nothing hboost => exact ⟨_, ⟨hboost, rfl⟩, rfl⟩
  | .boolean boost must should not, c => by
    simp only [build, bind_eq_ok, pure_eq_ok, checkBoost_eq_ok, buildAll_eq_ok]
    constructor
    · rintro ⟨_, ⟨hboost, rfl⟩, musts, hmust, shoulds, hshould, nots, hnot, rfl⟩
      exact ⟨.boolean hboost hmust.1 hshould.1 hnot.1, .boolean hmust.2 hshould.2 hnot.2⟩
    · rintro ⟨hvalid, hgives⟩
      cases hvalid with
      | boolean hboost hmust hshould hnot =>
        cases hgives with
        | boolean hmusts hshoulds hnots =>
          exact ⟨_, ⟨hboost, rfl⟩, _, ⟨hmust, hmusts⟩, _, ⟨hshould, hshoulds⟩, _,
            ⟨hnot, hnots⟩, rfl⟩
  | .leaf boost l, c => by
    simp only [build, bind_eq_ok, pure_eq_ok, checkBoost_eq_ok, Draft.Leaf.build_eq_ok]
    constructor
    · rintro ⟨_, ⟨hboost, rfl⟩, l', ⟨hvalid, hgives⟩, rfl⟩
      exact ⟨.leaf hboost hvalid, .leaf hgives⟩
    · rintro ⟨hvalid, hgives⟩
      cases hvalid with
      | leaf hboost hvalid =>
        cases hgives with
        | leaf hgives => exact ⟨_, ⟨hboost, rfl⟩, _, ⟨hvalid, hgives⟩, rfl⟩

theorem Draft.buildAll_eq_ok : ∀ {ds : List Draft} {cs : List Condition},
    Draft.buildAll ds = .ok cs ↔ (∀ d ∈ ds, d.Valid) ∧ List.Forall₂ Draft.Gives ds cs
  | [], cs => by
    simp [buildAll, eq_comm]
  | d :: ds, cs => by
    simp only [buildAll, bind_eq_ok, pure_eq_ok, Draft.build_eq_ok, Draft.buildAll_eq_ok,
      List.forall_mem_cons, List.forall₂_cons_left_iff]
    constructor
    · rintro ⟨c, hc, rest, hrest, rfl⟩
      exact ⟨⟨hc.1, hrest.1⟩, c, rest, hc.2, hrest.2, rfl⟩
    · rintro ⟨⟨hd, hds⟩, c, rest, hc, hrest, rfl⟩
      exact ⟨c, ⟨hd, hc⟩, rest, ⟨hds, hrest⟩, rfl⟩

end

/-- A draft of which each node makes sense gives such a condition. -/
theorem Draft.Valid.exists_gives {d : Draft} (h : d.Valid) : ∃ c, d.Gives c ∧ c.Sound := by
  induction h with
  | all hboost => exact ⟨_, .all, .all (isPositive_getD hboost)⟩
  | nothing hboost => exact ⟨_, .nothing, .nothing (isPositive_getD hboost)⟩
  | boolean hboost _ _ _ must should not =>
    obtain ⟨musts, hmusts, hsound⟩ := exists_forall₂ must
    obtain ⟨shoulds, hshoulds, hsound'⟩ := exists_forall₂ should
    obtain ⟨nots, hnots, hsound''⟩ := exists_forall₂ not
    exact ⟨_, .boolean hmusts hshoulds hnots,
      .boolean (isPositive_getD hboost) hsound hsound' hsound''⟩
  | leaf hboost hvalid =>
    obtain ⟨l, hgives, hsound⟩ := hvalid.exists_gives
    exact ⟨_, .leaf hgives, .leaf (isPositive_getD hboost) hsound⟩

theorem sound_of_build {d : Draft} {c : Condition} (h : d.build = .ok c) : c.Sound := by
  obtain ⟨hvalid, -⟩ := Draft.build_eq_ok.1 h
  obtain ⟨c', hgives, hsound⟩ := hvalid.exists_gives
  have h' : d.build = .ok c' := Draft.build_eq_ok.2 ⟨hvalid, hgives⟩
  rwa [Except.ok.inj (h.symm.trans h')]

/-- A draft is built exactly if each of its nodes makes sense. The condition has the shape of the
draft, and each of its nodes makes sense too; what is wrong with another draft is reported as a
fault of a condition. -/
theorem Draft.build_iff_valid (d : Draft) :
    ((∃ c, d.build = .ok c) ↔ d.Valid) ∧
      (∀ c, d.build = .ok c → d.Gives c ∧ c.Sound) ∧
      ∀ fault, d.build = .error fault →
        (report fault).errorClass = .schemaValidation ∧ (report fault).origin = .condition := by
  refine ⟨⟨?_, ?_⟩, ?_, ?_⟩
  · rintro ⟨c, hc⟩
    exact (Draft.build_eq_ok.1 hc).1
  · intro hvalid
    obtain ⟨c, hgives, -⟩ := hvalid.exists_gives
    exact ⟨c, Draft.build_eq_ok.2 ⟨hvalid, hgives⟩⟩
  · intro c hc
    exact ⟨(Draft.build_eq_ok.1 hc).2, sound_of_build hc⟩
  · intro fault _
    exact ⟨rfl, rfl⟩

end Condition

end ColumnIndex
