import ColumnIndex.Proofs.ConditionGrammar
import ColumnIndex.Proofs.Json.RereadNumbers

/-!
# What arrives where a condition was written

Not every draft of a condition comes back as it was written. A number that is not finite is written
as null, which is read as a boost or a bound that is not set and as no coordinate at all, and a
finite one may be read as another. All the same the text can be read as JSON, and what is read as
a condition has the shape of the draft, node by node.

## Main definitions

* `Condition.Draft.rereadBoost` — the boost that is read where one was written.
* `Condition.Draft.Arrives` — the drafts that are read where one was written.

Main statement: `Condition.Draft.arrives_of_decode`.
-/
namespace ColumnIndex

open Outcome Wire

namespace Wire

variable {α : Type} {a : Attribute α} {ms : List (String × Json)}

/-! ## Read attributes -/

theorem get_of_lookup {j : Json} (h : ms.lookup a.name = some j) : a.get ms = a.read j := by
  rw [Attribute.get, h]

theorem get_of_lookup_eq_none (h : ms.lookup a.name = none) : a.get ms = a.absent := by
  rw [Attribute.get, h]

/-- Only a finite coordinate is read. -/
theorem readDouble_reread_eq_ok {x y : Double} (h : readDouble (doubleJson x).reread = .ok y) :
    x.isFinite ∧ x.reread = y := by
  by_cases hx : x.isFinite
  · rw [doubleJson, Json.reread_double hx, readDouble, Except.ok.injEq] at h
    exact ⟨hx, h⟩
  · rw [doubleJson, Json.reread_double_null hx] at h
    cases h

/-- Literals are read one by one. -/
theorem forall₂_of_readLiterals {vs ws : List Value}
    (h : readLiterals (Json.list (Value.writtenItems vs)).reread = .ok ws) :
    List.Forall₂ (fun v w => readLiteral v.written.reread = .ok w) vs ws := by
  rw [Json.reread, readLiterals, readList] at h
  change (Json.rereadItems (Value.writtenItems vs)).mapM readLiteral = _ at h
  induction vs generalizing ws with
  | nil =>
    rw [Value.writtenItems, Json.rereadItems, List.mapM_nil, pure_eq_ok] at h
    subst h
    exact .nil
  | cons v vs ih =>
    simp only [Value.writtenItems, Json.rereadItems, List.mapM_cons, bind_eq_ok, pure_eq_ok] at h
    obtain ⟨w, hw, ws, hws, rfl⟩ := h
    exact .cons hw (ih hws)

end Wire

namespace Condition.Draft

/-! ## What arrives -/

/-- The boost that is read: one that is not finite is written as null, and read as none. -/
def rereadBoost (boost : Option Single) : Option Single :=
  (boost.filter (·.isFinite)).map Single.reread

/-- What is read where a bound was written: null is read as no bound. -/
def BoundArrives : Option Value → Option Value → Prop
  | none, w => w = none
  | some v, w => readOptional readLiteral v.written.reread = .ok w

/-- A leaf that is read where a leaf was written. Texts, whole numbers and truth values are the
same; literals and coordinates are what is read of them. -/
inductive Leaf.Arrives : Leaf → Leaf → Prop
  | pattern {form field text} : Arrives (.pattern form field text) (.pattern form field text)
  | fuzzy {field text maxEdits prefixLength maxExpansions transpositions} :
    Arrives (.fuzzy field text maxEdits prefixLength maxExpansions transpositions)
      (.fuzzy field text maxEdits prefixLength maxExpansions transpositions)
  | literal {form field v w} : readLiteral v.written.reread = .ok w →
    Arrives (.literal form field v) (.literal form field w)
  | phrase {field text slop} : Arrives (.phrase field text slop) (.phrase field text slop)
  | contains {field vs ws} :
    List.Forall₂ (fun v w => readLiteral v.written.reread = .ok w) vs ws →
    Arrives (.contains field vs) (.contains field ws)
  | range {field lower upper lower' upper' includeLower includeUpper} :
    BoundArrives lower lower' → BoundArrives upper upper' →
    Arrives (.range field lower upper includeLower includeUpper)
      (.range field lower' upper' includeLower includeUpper)
  | geoBox {field} {box : GeoBox} : box.minLatitude.isFinite → box.maxLatitude.isFinite →
    box.minLongitude.isFinite → box.maxLongitude.isFinite →
    Arrives (.geoBox field box) (.geoBox field (rereadBox box))
  | geoDistance {field maximum minimum} {latitude longitude : Double} : latitude.isFinite →
    longitude.isFinite →
    Arrives (.geoDistance field latitude longitude maximum minimum)
      (.geoDistance field latitude.reread longitude.reread maximum minimum)

/-- A draft that is read where a draft was written, node by node and child by child. -/
inductive Arrives : Draft → Draft → Prop
  | all {boost} : Arrives (.all boost) (.all (rereadBoost boost))
  | nothing {boost} : Arrives (.nothing boost) (.nothing (rereadBoost boost))
  | boolean {boost must should not musts shoulds nots} : List.Forall₂ Arrives must musts →
    List.Forall₂ Arrives should shoulds → List.Forall₂ Arrives not nots →
    Arrives (.boolean boost must should not) (.boolean (rereadBoost boost) musts shoulds nots)
  | leaf {boost l l'} : l.Arrives l' → Arrives (.leaf boost l) (.leaf (rereadBoost boost) l')

/-! ## Read attributes -/

theorem read_boost (x : Single) :
    boostAttribute.read (singleJson x).reread = .ok (rereadBoost (some x)) := by
  by_cases hx : x.isFinite
  · have hread := Single.readSingle_reread_of_isFinite hx
    have hvalue : rereadBoost (some x) = some x.reread := by
      rw [rereadBoost, Option.filter_some, if_pos hx, Option.map_some]
    rw [hvalue]
    obtain ⟨y, hy, -⟩ := Single.exists_reread_number hx
    refine readOptional_of_ne ?_ hread
    rw [singleJson, hy]
    simp
  · have hvalue : rereadBoost (some x) = none := by
      rw [rereadBoost, Option.filter_some, if_neg hx, Option.map_none]
    rw [hvalue, singleJson, Json.reread_single_null hx]
    rfl

theorem get_rereadBoost {boost : Option Single} {ms : List (String × Json)}
    (hlookup : ms.lookup "boost" = boost.map fun x => (singleJson x).reread) :
    boostAttribute.get ms = .ok (rereadBoost boost) := by
  cases boost with
  | none => exact get_of_lookup_eq_none hlookup
  | some x => exact (get_of_lookup hlookup).trans (read_boost x)

theorem boundArrives_of_get {name : String} {bound w : Option Value} {ms : List (String × Json)}
    (hlookup : ms.lookup name = bound.map fun v => v.written.reread)
    (h : (Attribute.optional name readLiteral).get ms = .ok w) : BoundArrives bound w := by
  cases bound with
  | none =>
    rw [get_of_lookup_eq_none hlookup] at h
    exact (Except.ok.inj h).symm
  | some v =>
    rw [get_of_lookup hlookup] at h
    exact h

/-! ## Read leaves -/

namespace Leaf

variable {field : String} {l' : Leaf} {ms : List (String × Json)}

theorem arrives_literal {form : LiteralForm} {v : Value} (hms : (literal form field v).StandsIn ms)
    (h : (literalReader form).read ms = .ok l') : (literal form field v).Arrives l' := by
  simp only [literalReader, get_field hms rfl, bind_eq_ok, pure_eq_ok, Except.ok.injEq] at h
  obtain ⟨_, rfl, w, hw, rfl⟩ := h
  rw [get_of_lookup (hms "value" (by decide) (by decide))] at hw
  exact .literal hw

theorem arrives_contains {values : List Value} (hms : (contains field values).StandsIn ms)
    (h : containsReader.read ms = .ok l') : (contains field values).Arrives l' := by
  simp only [containsReader, get_field hms rfl, bind_eq_ok, pure_eq_ok, Except.ok.injEq] at h
  obtain ⟨_, rfl, ws, hws, rfl⟩ := h
  rw [get_of_lookup (hms "values" (by decide) (by decide))] at hws
  exact .contains (forall₂_of_readLiterals hws)

theorem arrives_range {lower upper : Option Value} {includeLower includeUpper : Option Bool}
    (hms : (range field lower upper includeLower includeUpper).StandsIn ms)
    (h : rangeReader.read ms = .ok l') :
    (range field lower upper includeLower includeUpper).Arrives l' := by
  obtain ⟨hlookupLower, hlookupUpper, hlookupIncludeLower, hlookupIncludeUpper⟩ := lookup_range hms
  have hincludeLower := get_written hlookupIncludeLower readOptional_bool
  have hincludeUpper := get_written hlookupIncludeUpper readOptional_bool
  simp only [rangeReader, get_field hms rfl, hincludeLower, hincludeUpper, bind_eq_ok, pure_eq_ok,
    Except.ok.injEq] at h
  obtain ⟨_, rfl, lower', hlower, upper', hupper, _, rfl, _, rfl, rfl⟩ := h
  exact .range (boundArrives_of_get hlookupLower hlower) (boundArrives_of_get hlookupUpper hupper)

theorem arrives_geoBox {box : GeoBox} (hms : (geoBox field box).StandsIn ms)
    (h : geoBoxReader.read ms = .ok l') : (geoBox field box).Arrives l' := by
  simp only [geoBoxReader, get_field hms rfl, bind_eq_ok, pure_eq_ok, Except.ok.injEq] at h
  obtain ⟨_, rfl, a, ha, b, hb, c, hc, d, hd, rfl⟩ := h
  rw [get_of_lookup (hms "min_latitude" (by decide) (by decide))] at ha
  rw [get_of_lookup (hms "max_latitude" (by decide) (by decide))] at hb
  rw [get_of_lookup (hms "min_longitude" (by decide) (by decide))] at hc
  rw [get_of_lookup (hms "max_longitude" (by decide) (by decide))] at hd
  obtain ⟨hafinite, rfl⟩ := readDouble_reread_eq_ok ha
  obtain ⟨hbfinite, rfl⟩ := readDouble_reread_eq_ok hb
  obtain ⟨hcfinite, rfl⟩ := readDouble_reread_eq_ok hc
  obtain ⟨hdfinite, rfl⟩ := readDouble_reread_eq_ok hd
  exact .geoBox hafinite hbfinite hcfinite hdfinite

theorem arrives_geoDistance {latitude longitude : Double} {maximum : String}
    {minimum : Option String}
    (hms : (geoDistance field latitude longitude maximum minimum).StandsIn ms)
    (h : geoDistanceReader.read ms = .ok l') :
    (geoDistance field latitude longitude maximum minimum).Arrives l' := by
  obtain ⟨hmaximum, hminimum⟩ := get_distances hms
  simp only [geoDistanceReader, get_field hms rfl, hmaximum, hminimum, bind_eq_ok, pure_eq_ok,
    Except.ok.injEq] at h
  obtain ⟨_, rfl, a, ha, b, hb, _, rfl, _, rfl, rfl⟩ := h
  rw [get_of_lookup (hms "latitude" (by decide) (by decide))] at ha
  rw [get_of_lookup (hms "longitude" (by decide) (by decide))] at hb
  obtain ⟨hafinite, rfl⟩ := readDouble_reread_eq_ok ha
  obtain ⟨hbfinite, rfl⟩ := readDouble_reread_eq_ok hb
  exact .geoDistance hafinite hbfinite

/-- What is read of the members of a leaf is a leaf that arrives. -/
theorem arrives_of_read {l : Leaf} (hms : l.StandsIn ms) (h : l.reader.read ms = .ok l') :
    l.Arrives l' := by
  cases l with
  | pattern form =>
    cases (read_pattern hms).symm.trans h
    exact .pattern
  | fuzzy =>
    cases (read_fuzzy hms).symm.trans h
    exact .fuzzy
  | phrase =>
    cases (read_phrase hms).symm.trans h
    exact .phrase
  | literal => exact arrives_literal hms h
  | contains => exact arrives_contains hms h
  | range => exact arrives_range hms h
  | geoBox => exact arrives_geoBox hms h
  | geoDistance => exact arrives_geoDistance hms h

end Leaf

/-! ## Read drafts -/

/-- What is read of an object with a tag is read in the form of the tag. -/
theorem readAs_of_ofJson (tag : ConditionTag) {ms : List (String × Json)} {d : Draft}
    (htype : ms.lookup "type" = some (.text tag.name)) (h : ofJson (.object ms) = .ok d) :
    readAs (form tag) ms = .ok d := by
  obtain ⟨tag', htype', hknown, -⟩ := isRead_object_iff.1 ⟨d, h⟩
  have hname : tag.name = tag'.name := Json.text.inj (Option.some.inj (htype.symm.trans htype'))
  have htag : tag = tag' := by
    have hfound := ConditionTag.ofName?_name tag
    rw [hname, ConditionTag.ofName?_name] at hfound
    exact (Option.some.inj hfound).symm
  subst htag
  rw [ofJson_object tag htype hknown, mapError_eq_ok] at h
  exact h

/-- What is read of the object of a leaf is a leaf that arrives, with the boost that arrives. -/
theorem exists_leaf_of_ofJson {boost : Option Single} {l : Leaf} {d : Draft}
    (h : ofJson (Json.object (leafMembers boost l)).reread = .ok d) :
    ∃ l', d = .leaf (rereadBoost boost) l' ∧ l.Arrives l' := by
  have hget := get_rereadBoost (lookup_boost_leafMembers boost l)
  have hread := readAs_of_ofJson l.tag (by rw [rereadMembers_leafMembers]; rfl) h
  simp only [form_tag, readAs, leafOfMembers, bind_eq_ok, pure_eq_ok, hget, Except.ok.injEq]
    at hread
  obtain ⟨_, -, l', hl', _, rfl, rfl⟩ := hread
  exact ⟨l', rfl, Leaf.arrives_of_read (fun _ => lookup_leafMembers) hl'⟩

/-- What is read of the object of a condition without parts has the boost that arrives. -/
theorem eq_of_ofJson_constant (tag : ConditionTag) {make : Option Single → Draft}
    (hform : form tag = .constant make) {boost : Option Single} {d : Draft}
    (h : ofJson (Json.object (tagMember tag :: boostMember boost)).reread = .ok d) :
    d = make (rereadBoost boost) := by
  have hget := get_rereadBoost (lookup_boost_constantMembers tag boost)
  have hread := readAs_of_ofJson tag (by rw [rereadMembers_constantMembers]; rfl) h
  rw [hform, readAs, hget] at hread
  exact (Except.ok.inj hread).symm

/-- What is read of the object of a boolean condition has the boost that arrives, and as its parts
what is read of the lists. -/
theorem exists_boolean_of_ofJson {boost : Option Single} {must should not : List Draft} {d : Draft}
    (h : ofJson (Json.object (booleanMembers boost must should not)).reread = .ok d) :
    ∃ musts shoulds nots, d = .boolean (rereadBoost boost) musts shoulds nots ∧
      listOfJson (Json.rereadItems (listToJson must)) = .ok musts ∧
      listOfJson (Json.rereadItems (listToJson should)) = .ok shoulds ∧
      listOfJson (Json.rereadItems (listToJson not)) = .ok nots := by
  have hread := readAs_of_ofJson .boolean (by cases boost <;> rfl) h
  simp only [form, readAs, bind_eq_ok, pure_eq_ok] at hread
  obtain ⟨parts, hparts, rfl⟩ := hread
  have hlists : ∃ musts, listOfJson (Json.rereadItems (listToJson must)) = .ok musts ∧
      ∃ shoulds, listOfJson (Json.rereadItems (listToJson should)) = .ok shoulds ∧
      ∃ nots, listOfJson (Json.rereadItems (listToJson not)) = .ok nots ∧
        ⟨rereadBoost boost, musts, shoulds, nots⟩ = parts := by
    -- The members are taken one at a time, so each of the two lists of members is run through.
    cases boost with
    | none =>
      simpa [booleanMembers, boostMember, member?, Json.rereadMembers, tagMember,
        booleanOfMembers, Json.reread, bind_eq_ok, rereadBoost] using hparts
    | some x =>
      simpa [booleanMembers, boostMember, member?, Json.rereadMembers, tagMember,
        booleanOfMembers, Json.reread, bind_eq_ok, read_boost] using hparts
  obtain ⟨musts, hmust, shoulds, hshould, nots, hnot, rfl⟩ := hlists
  exact ⟨musts, shoulds, nots, rfl, hmust, hshould, hnot⟩

mutual

/-- What is read of the object of a draft is a draft that arrives. -/
theorem arrives_of_ofJson : ∀ {d d' : Draft}, ofJson d.toJson.reread = .ok d' → d.Arrives d'
  | .all _, _, h => by
    rw [eq_of_ofJson_constant .all rfl h]
    exact .all
  | .nothing _, _, h => by
    rw [eq_of_ofJson_constant .nothing rfl h]
    exact .nothing
  | .boolean _ _ _ _, _, h => by
    obtain ⟨musts, shoulds, nots, rfl, hmust, hshould, hnot⟩ := exists_boolean_of_ofJson h
    exact .boolean (forall₂_of_listOfJson hmust) (forall₂_of_listOfJson hshould)
      (forall₂_of_listOfJson hnot)
  | .leaf _ _, _, h => by
    obtain ⟨l', rfl, hl⟩ := exists_leaf_of_ofJson h
    exact .leaf hl

theorem forall₂_of_listOfJson : ∀ {ds ds' : List Draft},
    listOfJson (Json.rereadItems (listToJson ds)) = .ok ds' → List.Forall₂ Arrives ds ds'
  | [], ds', h => by
    rw [listToJson, Json.rereadItems, listOfJson, Except.ok.injEq] at h
    subst h
    exact .nil
  | d :: ds, ds', h => by
    simp only [listToJson, Json.rereadItems, listOfJson, bind_eq_ok, pure_eq_ok] at h
    obtain ⟨d', hd, ds', hds, rfl⟩ := h
    exact .cons (arrives_of_ofJson hd) (forall₂_of_listOfJson hds)

end

/-- From the text of a draft the tree of the draft is read, unless it is nested too deep. -/
theorem parse_eq (d : Draft) :
    parse d.text = if d.toJson.depth ≤ Json.maxDepth then ofJson d.toJson.reread
      else .error (.malformed .tooDeep) := by
  rw [parse, text, Json.parse_compact d.legible_toJson]
  split
  · rfl
  · rfl

/-- What is decoded from the text of a draft is a draft that arrives. -/
theorem arrives_of_decode {d d' : Draft} (h : (decode d.text).result = .ok d') :
    d.Arrives d' := by
  simp only [decode, Recorded.result_bind, Recorded.result_ofExcept, Recorded.result_note,
    Recorded.result_pure, bind_eq_ok, mapError_eq_ok, parse_eq, Except.ok.injEq] at h
  obtain ⟨_, hread, _, -, rfl⟩ := h
  split at hread
  · exact arrives_of_ofJson hread
  · cases hread

end Condition.Draft

end ColumnIndex
