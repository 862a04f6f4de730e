import ColumnIndex.Proofs.WrittenConditions

/-!
# Read conditions

The object that was written for a condition has the tag of its kind and the attributes of this
kind, so the reader of the kind reads it. What it reads is the draft whose numbers were read.

Main statement: `Condition.Draft.ofJson_reread`.
-/
namespace ColumnIndex.Condition

open Wire

namespace Draft

theorem readOptional_literal {v : Value} (hv : v ≠ .null) (h : v.LiteralReproduced) :
    readOptional readLiteral v.written.reread = .ok (some v.reread) :=
  readOptional_of_ne (Value.reread_ne_null h.reproduced hv) (readLiteral_reread h.reproduced)

/-! ## Members with the forms of their attributes -/

namespace Leaf

/-- The checks of a leaf with that of its boost. -/
def checks (l : Leaf) : List (String × Reader Unit) := boostAttribute.check :: l.reader.checks

variable {field text : String}

theorem fits_pattern (form : PatternForm) :
    ∀ m ∈ Json.rereadMembers (pattern form field text).members,
      Fits (pattern form field text).checks m := by
  simp only [members, Json.rereadMembers, List.forall_mem_cons]
  refine ⟨?_, ?_, List.forall_mem_nil _⟩
  · exact fits_of_read fieldAttribute rfl rfl
  · exact fits_of_read textAttribute rfl rfl

theorem fits_fuzzy (maxEdits : Option UInt8) (prefixLength maxExpansions : Option UInt32)
    (transpositions : Option Bool) :
    ∀ m ∈ Json.rereadMembers
        (fuzzy field text maxEdits prefixLength maxExpansions transpositions).members,
      Fits (fuzzy field text maxEdits prefixLength maxExpansions transpositions).checks m := by
  simp only [members, Json.rereadMembers_append, Json.rereadMembers_member?, Json.rereadMembers,
    List.forall_mem_append, List.forall_mem_cons, forall_mem_member?]
  refine ⟨⟨⟨⟨⟨?_, ?_, List.forall_mem_nil _⟩, fun n _ => ?_⟩, fun n _ => ?_⟩, fun n _ => ?_⟩,
    fun b _ => ?_⟩
  · exact fits_of_read fieldAttribute rfl rfl
  · exact fits_of_read textAttribute rfl rfl
  · exact fits_of_read (.optional "max_edits" readByte) rfl (readOptional_byte n)
  · exact fits_of_read (.optional "prefix_length" readWord) rfl (readOptional_word n)
  · exact fits_of_read (.optional "max_expansions" readWord) rfl (readOptional_word n)
  · exact fits_of_read (.optional "transpositions" readBool) rfl (readOptional_bool b)

theorem fits_literal (form : LiteralForm) {v : Value} (h : v.LiteralReproduced) :
    ∀ m ∈ Json.rereadMembers (literal form field v).members,
      Fits (literal form field v).checks m := by
  simp only [members, Json.rereadMembers, List.forall_mem_cons]
  refine ⟨?_, ?_, List.forall_mem_nil _⟩
  · exact fits_of_read fieldAttribute rfl rfl
  · exact fits_of_read (.required "value" readLiteral) rfl (readLiteral_reread h.reproduced)

theorem fits_phrase (slop : Option UInt32) :
    ∀ m ∈ Json.rereadMembers (phrase field text slop).members,
      Fits (phrase field text slop).checks m := by
  simp only [members, Json.rereadMembers_append, Json.rereadMembers_member?, Json.rereadMembers,
    List.forall_mem_append, List.forall_mem_cons, forall_mem_member?]
  refine ⟨⟨?_, ?_, List.forall_mem_nil _⟩, fun n _ => ?_⟩
  · exact fits_of_read fieldAttribute rfl rfl
  · exact fits_of_read textAttribute rfl rfl
  · exact fits_of_read (.optional "slop" readWord) rfl (readOptional_word n)

theorem fits_contains {values : List Value} (h : (contains field values).Reproduced) :
    ∀ m ∈ Json.rereadMembers (contains field values).members,
      Fits (contains field values).checks m := by
  simp only [members, Json.rereadMembers, List.forall_mem_cons]
  refine ⟨?_, ?_, List.forall_mem_nil _⟩
  · exact fits_of_read fieldAttribute rfl rfl
  · exact fits_of_read (.required "values" readLiterals) rfl
      (readLiterals_reread (itemsReproduced_of_forall h))

theorem fits_range {lower upper : Option Value} {includeLower includeUpper : Option Bool}
    (h : (range field lower upper includeLower includeUpper).Reproduced) :
    ∀ m ∈ Json.rereadMembers (range field lower upper includeLower includeUpper).members,
      Fits (range field lower upper includeLower includeUpper).checks m := by
  simp only [members, List.cons_append, Json.rereadMembers_append, Json.rereadMembers_member?,
    Json.rereadMembers, List.forall_mem_append, List.forall_mem_cons, forall_mem_member?]
  refine ⟨?_, ⟨⟨fun v hv => ?_, fun v hv => ?_⟩, fun b _ => ?_⟩, fun b _ => ?_⟩
  · exact fits_of_read fieldAttribute rfl rfl
  · exact fits_of_read (.optional "lower" readLiteral) rfl
      (readOptional_literal (h.1 v hv).1 (h.1 v hv).2)
  · exact fits_of_read (.optional "upper" readLiteral) rfl
      (readOptional_literal (h.2 v hv).1 (h.2 v hv).2)
  · exact fits_of_read (.optional "include_lower" readBool) rfl (readOptional_bool b)
  · exact fits_of_read (.optional "include_upper" readBool) rfl (readOptional_bool b)

theorem fits_geoBox {box : GeoBox} (h : (geoBox field box).Reproduced) :
    ∀ m ∈ Json.rereadMembers (geoBox field box).members, Fits (geoBox field box).checks m := by
  obtain ⟨h₁, h₂, h₃, h₄⟩ := h
  simp only [members, boxMembers, Json.rereadMembers, List.forall_mem_cons]
  refine ⟨?_, ?_, ?_, ?_, ?_, List.forall_mem_nil _⟩
  · exact fits_of_read fieldAttribute rfl rfl
  · exact fits_of_read (.required "min_latitude" readDouble) rfl (readDouble_reread h₁)
  · exact fits_of_read (.required "max_latitude" readDouble) rfl (readDouble_reread h₂)
  · exact fits_of_read (.required "min_longitude" readDouble) rfl (readDouble_reread h₃)
  · exact fits_of_read (.required "max_longitude" readDouble) rfl (readDouble_reread h₄)

theorem fits_geoDistance {latitude longitude : Double} {maximum : String} {minimum : Option String}
    (h : (geoDistance field latitude longitude maximum minimum).Reproduced) :
    ∀ m ∈ Json.rereadMembers (geoDistance field latitude longitude maximum minimum).members,
      Fits (geoDistance field latitude longitude maximum minimum).checks m := by
  simp only [members, Json.rereadMembers_append, Json.rereadMembers_member?, Json.rereadMembers,
    List.forall_mem_append, List.forall_mem_cons, forall_mem_member?]
  refine ⟨⟨?_, ?_, ?_, ?_, List.forall_mem_nil _⟩, fun s _ => ?_⟩
  · exact fits_of_read fieldAttribute rfl rfl
  · exact fits_of_read (.required "latitude" readDouble) rfl (readDouble_reread h.1)
  · exact fits_of_read (.required "longitude" readDouble) rfl (readDouble_reread h.2)
  · exact fits_of_read (.required "max_distance" readText) rfl rfl
  · exact fits_of_read (.optional "min_distance" readText) rfl (readOptional_text s)

/-- The members of a leaf have the forms of its attributes. -/
theorem fits_members {l : Leaf} (h : l.Reproduced) :
    ∀ m ∈ Json.rereadMembers l.members, Fits l.checks m := by
  cases l with
  | pattern form => exact fits_pattern form
  | fuzzy => exact fits_fuzzy _ _ _ _
  | literal form => exact fits_literal form h
  | phrase _ _ slop => exact fits_phrase slop
  | contains => exact fits_contains h
  | range => exact fits_range h
  | geoBox => exact fits_geoBox h
  | geoDistance => exact fits_geoDistance h

/-! ## Read members -/

/-- But for the tag and the boost, the members are those that were written for the leaf. -/
def StandsIn (l : Leaf) (ms : List (String × Json)) : Prop :=
  ∀ name, name ≠ "type" → name ≠ "boost" →
    ms.lookup name = (Json.rereadMembers l.members).lookup name

variable {ms : List (String × Json)}

theorem get_field {l : Leaf} {rest : List (String × Json)} (h : l.StandsIn ms)
    (hl : l.members = ("field", .text field) :: rest) : fieldAttribute.get ms = .ok field := by
  refine get_required (j := .text field) ?_ rfl
  rw [h "field" (by decide) (by decide), hl]
  rfl

theorem get_text {l : Leaf} {rest : List (String × Json)} (h : l.StandsIn ms)
    (hl : l.members = ("field", .text field) :: ("value", .text text) :: rest) :
    textAttribute.get ms = .ok text := by
  refine get_required (j := .text text) ?_ rfl
  rw [h "value" (by decide) (by decide), hl]
  rfl

theorem read_pattern {form : PatternForm} (h : (pattern form field text).StandsIn ms) :
    (patternReader form).read ms = .ok (.pattern form field text) := by
  simp only [patternReader, get_field h rfl, get_text h rfl]
  rfl

theorem read_fuzzy {maxEdits : Option UInt8} {prefixLength maxExpansions : Option UInt32}
    {transpositions : Option Bool}
    (h : (fuzzy field text maxEdits prefixLength maxExpansions transpositions).StandsIn ms) :
    fuzzyReader.read ms
      = .ok (.fuzzy field text maxEdits prefixLength maxExpansions transpositions) := by
  have hfield := get_field h rfl
  have htext := get_text h rfl
  simp only [StandsIn, members, Json.rereadMembers_append, Json.rereadMembers_member?,
    Json.rereadMembers, lookup_append] at h
  have hedits : (Attribute.optional "max_edits" readByte).get ms = .ok maxEdits := by
    refine get_written ?_ readOptional_byte
    rw [h "max_edits" (by decide) (by decide)]
    simp [List.lookup_cons, lookup_member?_self, lookup_member?_of_ne]
  have hprefix : (Attribute.optional "prefix_length" readWord).get ms = .ok prefixLength := by
    refine get_written ?_ readOptional_word
    rw [h "prefix_length" (by decide) (by decide)]
    simp [List.lookup_cons, lookup_member?_self, lookup_member?_of_ne]
  have hexpansions : (Attribute.optional "max_expansions" readWord).get ms
      = .ok maxExpansions := by
    refine get_written ?_ readOptional_word
    rw [h "max_expansions" (by decide) (by decide)]
    simp [List.lookup_cons, lookup_member?_self, lookup_member?_of_ne]
  have htranspositions : (Attribute.optional "transpositions" readBool).get ms
      = .ok transpositions := by
    refine get_written ?_ readOptional_bool
    rw [h "transpositions" (by decide) (by decide)]
    simp [List.lookup_cons, lookup_member?_self, lookup_member?_of_ne, Json.reread]
  simp only [fuzzyReader, hfield, htext, hedits, hprefix, hexpansions, htranspositions]
  rfl

theorem read_literal {form : LiteralForm} {v : Value} (hv : v.LiteralReproduced)
    (h : (literal form field v).StandsIn ms) :
    (literalReader form).read ms = .ok (.literal form field v.reread) := by
  have hvalue : (Attribute.required "value" readLiteral).get ms = .ok v.reread :=
    get_required (h "value" (by decide) (by decide)) (readLiteral_reread hv.reproduced)
  simp only [literalReader, get_field h rfl, hvalue]
  rfl

theorem read_phrase {slop : Option UInt32} (h : (phrase field text slop).StandsIn ms) :
    phraseReader.read ms = .ok (.phrase field text slop) := by
  have hslop : (Attribute.optional "slop" readWord).get ms = .ok slop := by
    refine get_written ?_ readOptional_word
    rw [h "slop" (by decide) (by decide)]
    simp [members, Json.rereadMembers, List.lookup_cons]
  simp only [phraseReader, get_field h rfl, get_text h rfl, hslop]
  rfl

theorem read_contains {values : List Value} (hl : (contains field values).Reproduced)
    (h : (contains field values).StandsIn ms) :
    containsReader.read ms = .ok (.contains field (Value.rereadItems values)) := by
  have hvalues : (Attribute.required "values" readLiterals).get ms
      = .ok (Value.rereadItems values) :=
    get_required (h "values" (by decide) (by decide))
      (readLiterals_reread (itemsReproduced_of_forall hl))
  simp only [containsReader, get_field h rfl, hvalues]
  rfl

section Range

variable {lower upper : Option Value} {includeLower includeUpper : Option Bool}

/-- The bounds of a range as they were written, and whether they belong to it. -/
theorem lookup_range (h : (range field lower upper includeLower includeUpper).StandsIn ms) :
    ms.lookup "lower" = lower.map (fun v => v.written.reread) ∧
      ms.lookup "upper" = upper.map (fun v => v.written.reread) ∧
      ms.lookup "include_lower" = includeLower.map Json.bool ∧
      ms.lookup "include_upper" = includeUpper.map Json.bool := by
  simp only [StandsIn, members, List.cons_append, Json.rereadMembers_append,
    Json.rereadMembers_member?, Json.rereadMembers, List.lookup_cons, lookup_append] at h
  refine ⟨?_, ?_, ?_, ?_⟩
  · rw [h "lower" (by decide) (by decide)]
    simp [lookup_member?_self, lookup_member?_of_ne]
  · rw [h "upper" (by decide) (by decide)]
    simp [lookup_member?_self, lookup_member?_of_ne]
  · rw [h "include_lower" (by decide) (by decide)]
    simp [lookup_member?_self, lookup_member?_of_ne, Json.reread]
  · rw [h "include_upper" (by decide) (by decide)]
    simp [lookup_member?_self, lookup_member?_of_ne, Json.reread]

theorem read_range (hl : (range field lower upper includeLower includeUpper).Reproduced)
    (h : (range field lower upper includeLower includeUpper).StandsIn ms) :
    rangeReader.read ms = .ok (.range field (lower.map Value.reread) (upper.map Value.reread)
      includeLower includeUpper) := by
  obtain ⟨hlookupLower, hlookupUpper, hlookupIncludeLower, hlookupIncludeUpper⟩ := lookup_range h
  have hlower := get_optional hlookupLower fun v hv =>
    readOptional_literal (hl.1 v hv).1 (hl.1 v hv).2
  have hupper := get_optional hlookupUpper fun v hv =>
    readOptional_literal (hl.2 v hv).1 (hl.2 v hv).2
  have hincludeLower := get_written hlookupIncludeLower readOptional_bool
  have hincludeUpper := get_written hlookupIncludeUpper readOptional_bool
  simp only [rangeReader, get_field h rfl, hlower, hupper, hincludeLower, hincludeUpper]
  rfl

end Range

theorem read_geoBox {box : GeoBox} (hl : (geoBox field box).Reproduced)
    (h : (geoBox field box).StandsIn ms) :
    geoBoxReader.read ms = .ok (.geoBox field (rereadBox box)) := by
  obtain ⟨h₁, h₂, h₃, h₄⟩ := hl
  have hminLatitude : (Attribute.required "min_latitude" readDouble).get ms
      = .ok box.minLatitude.reread :=
    get_required (h "min_latitude" (by decide) (by decide)) (readDouble_reread h₁)
  have hmaxLatitude : (Attribute.required "max_latitude" readDouble).get ms
      = .ok box.maxLatitude.reread :=
    get_required (h "max_latitude" (by decide) (by decide)) (readDouble_reread h₂)
  have hminLongitude : (Attribute.required "min_longitude" readDouble).get ms
      = .ok box.minLongitude.reread :=
    get_required (h "min_longitude" (by decide) (by decide)) (readDouble_reread h₃)
  have hmaxLongitude : (Attribute.required "max_longitude" readDouble).get ms
      = .ok box.maxLongitude.reread :=
    get_required (h "max_longitude" (by decide) (by decide)) (readDouble_reread h₄)
  simp only [geoBoxReader, get_field h rfl, hminLatitude, hmaxLatitude, hminLongitude,
    hmaxLongitude]
  rfl

section GeoDistance

variable {latitude longitude : Double} {maximum : String} {minimum : Option String}

/-- The distances of a ring are read as they were written. -/
theorem get_distances (h : (geoDistance field latitude longitude maximum minimum).StandsIn ms) :
    (Attribute.required "max_distance" readText).get ms = .ok maximum ∧
      (Attribute.optional "min_distance" readText).get ms = .ok minimum := by
  refine ⟨get_required (h "max_distance" (by decide) (by decide)) rfl,
    get_written ?_ readOptional_text⟩
  rw [h "min_distance" (by decide) (by decide)]
  simp [members, Json.rereadMembers, List.lookup_cons, Json.reread]

theorem read_geoDistance (hl : (geoDistance field latitude longitude maximum minimum).Reproduced)
    (h : (geoDistance field latitude longitude maximum minimum).StandsIn ms) :
    geoDistanceReader.read ms
      = .ok (.geoDistance field latitude.reread longitude.reread maximum minimum) := by
  have hlatitude : (Attribute.required "latitude" readDouble).get ms = .ok latitude.reread :=
    get_required (h "latitude" (by decide) (by decide)) (readDouble_reread hl.1)
  have hlongitude : (Attribute.required "longitude" readDouble).get ms = .ok longitude.reread :=
    get_required (h "longitude" (by decide) (by decide)) (readDouble_reread hl.2)
  obtain ⟨hmaximum, hminimum⟩ := get_distances h
  simp only [geoDistanceReader, get_field h rfl, hlatitude, hlongitude, hmaximum, hminimum]
  rfl

end GeoDistance

/-- The members of an object give a leaf the attributes that were written for it. -/
theorem read_members {l : Leaf} (hl : l.Reproduced) (h : l.StandsIn ms) :
    l.reader.read ms = .ok l.reread := by
  cases l with
  | pattern => exact read_pattern h
  | fuzzy => exact read_fuzzy h
  | literal => exact read_literal hl h
  | phrase => exact read_phrase h
  | contains => exact read_contains hl h
  | range => exact read_range hl h
  | geoBox => exact read_geoBox hl h
  | geoDistance => exact read_geoDistance hl h

end Leaf

/-! ## Read drafts -/

/-- An object with a known tag and known attributes is read in the form of its tag. -/
theorem ofJson_object {ms : List (String × Json)} (tag : ConditionTag)
    (htype : ms.lookup "type" = some (.text tag.name))
    (hknown : unknown? (form tag).attributes ms = none) :
    ofJson (.object ms) =
      (match form tag with
        | .constant make => (boostAttribute.get ms).map make
        | .boolean => do
          let parts ← booleanOfMembers {} ms
          pure (.boolean parts.boost parts.must parts.should parts.not)
        | .leaf reader => leafOfMembers reader ms).mapError (.inside .condition tag.name) := by
  rw [ofJson]
  simp only [Tagged.ofJson, htype, Outcome.ok_bind, ConditionTag.ofName?_name, Tagged.only, hknown]
  rfl

theorem get_boost {boost : Option Single} (h : ∀ x ∈ boost, x.Reproduced)
    {ms : List (String × Json)}
    (hlookup : ms.lookup "boost" = boost.map fun x => (singleJson x).reread) :
    boostAttribute.get ms = .ok (boost.map Single.reread) :=
  get_optional hlookup fun x hx => readOptional_single (h x hx)

theorem rereadMembers_boostMember (boost : Option Single) :
    Json.rereadMembers (boostMember boost)
      = member? "boost" (fun x => (singleJson x).reread) boost :=
  Json.rereadMembers_member? _ _ _

/-- The tag and the boost are no members of a leaf itself. -/
theorem Leaf.not_mem_names (l : Leaf) :
    "type" ∉ l.reader.checks.map (·.1) ∧ "boost" ∉ l.reader.checks.map (·.1) := by
  have hnodup := nodup_attributes l.tag
  rw [form_tag, Form.attributes, List.nodup_cons, List.nodup_append] at hnodup
  obtain ⟨htype, -, -, hboost⟩ := hnodup
  exact ⟨fun h => htype (List.mem_append_left _ h),
    fun h => hboost _ h _ (List.mem_singleton_self _) rfl⟩

/-- The members that are read of a leaf: the tag, its own ones, and the boost. -/
theorem rereadMembers_leafMembers (boost : Option Single) (l : Leaf) :
    Json.rereadMembers (leafMembers boost l)
      = ("type", .text l.tag.name) :: (Json.rereadMembers l.members
        ++ member? "boost" (fun x => (singleJson x).reread) boost) := by
  rw [leafMembers, List.cons_append]
  change _ :: Json.rereadMembers (l.members ++ boostMember boost) = _
  rw [Json.rereadMembers_append, rereadMembers_boostMember]
  rfl

theorem lookup_boost_leafMembers (boost : Option Single) (l : Leaf) :
    (Json.rereadMembers (leafMembers boost l)).lookup "boost"
      = boost.map fun x => (singleJson x).reread := by
  have hmembers : (Json.rereadMembers l.members).lookup "boost" = none := by
    refine Entries.lookup_eq_none_iff.2 ?_
    rw [Json.names_rereadMembers]
    exact fun h => l.not_mem_names.2 (l.names_members_sublist.mem h)
  rw [rereadMembers_leafMembers, List.lookup_cons, beq_false_of_ne (by decide), lookup_append,
    hmembers, Option.none_or, lookup_member?_self]

theorem lookup_leafMembers {boost : Option Single} {l : Leaf} {name : String}
    (hne : name ≠ "type") (hboost : name ≠ "boost") :
    (Json.rereadMembers (leafMembers boost l)).lookup name
      = (Json.rereadMembers l.members).lookup name := by
  rw [rereadMembers_leafMembers, List.lookup_cons, beq_false_of_ne hne, lookup_append,
    lookup_member?_of_ne hboost, Option.or_none]

/-- The members that are read of a condition without parts: the tag and the boost. -/
theorem rereadMembers_constantMembers (tag : ConditionTag) (boost : Option Single) :
    Json.rereadMembers (tagMember tag :: boostMember boost)
      = ("type", .text tag.name) :: member? "boost" (fun x => (singleJson x).reread) boost := by
  rw [← rereadMembers_boostMember]
  rfl

theorem lookup_boost_constantMembers (tag : ConditionTag) (boost : Option Single) :
    (Json.rereadMembers (tagMember tag :: boostMember boost)).lookup "boost"
      = boost.map fun x => (singleJson x).reread := by
  rw [rereadMembers_constantMembers, List.lookup_cons, beq_false_of_ne (by decide),
    lookup_member?_self]

/-- The draft of a leaf is read where the leaf was written. -/
theorem ofJson_leaf {boost : Option Single} {l : Leaf} (hboost : ∀ x ∈ boost, x.Reproduced)
    (hl : l.Reproduced) :
    ofJson (Json.object (leafMembers boost l)).reread
      = .ok (.leaf (boost.map Single.reread) l.reread) := by
  have htype := l.not_mem_names.1
  have hms := rereadMembers_leafMembers boost l
  have hfits : ∀ m ∈ Json.rereadMembers (leafMembers boost l), Fits l.checks m := by
    rw [hms, List.forall_mem_cons, List.forall_mem_append, forall_mem_member?]
    refine ⟨.inl ⟨rfl, Entries.lookup_eq_none_iff.2 ?_⟩, Leaf.fits_members hl, fun x hx => ?_⟩
    · change "type" ∉ "boost" :: l.reader.checks.map (·.1)
      simp [htype]
    · exact fits_of_read boostAttribute rfl (readOptional_single (hboost x hx))
  have hknown : unknown? (form l.tag).attributes (Json.rereadMembers (leafMembers boost l))
      = none := by
    refine unknown?_eq_none (fun name hname => ?_) hfits
    change name ∈ "boost" :: l.reader.checks.map (·.1) at hname
    rw [form_tag, Form.attributes, List.mem_append, List.mem_singleton]
    rw [List.mem_cons] at hname
    exact hname.symm
  have hread : l.reader.read (Json.rereadMembers (leafMembers boost l)) = .ok l.reread :=
    Leaf.read_members hl fun _ => lookup_leafMembers
  have hget : boostAttribute.get (Json.rereadMembers (leafMembers boost l))
      = .ok (boost.map Single.reread) :=
    get_boost hboost (lookup_boost_leafMembers boost l)
  rw [Json.reread, ofJson_object l.tag (by rw [hms]; rfl) hknown, form_tag]
  simp only [leafOfMembers]
  rw [show checkAll (boostAttribute.check :: l.reader.checks) _ = _ from checkAll_eq_ok hfits,
    hread, hget]
  rfl

/-- The draft of a condition without parts is read where the condition was written. -/
theorem ofJson_constant (tag : ConditionTag) {make : Option Single → Draft}
    (hform : form tag = .constant make) {boost : Option Single}
    (hboost : ∀ x ∈ boost, x.Reproduced) :
    ofJson (Json.object (tagMember tag :: boostMember boost)).reread
      = .ok (make (boost.map Single.reread)) := by
  have hms := rereadMembers_constantMembers tag boost
  have hknown : unknown? (form tag).attributes
      (Json.rereadMembers (tagMember tag :: boostMember boost)) = none := by
    rw [hform, hms]
    cases boost <;> rfl
  have hget : boostAttribute.get (Json.rereadMembers (tagMember tag :: boostMember boost))
      = .ok (boost.map Single.reread) :=
    get_boost hboost (lookup_boost_constantMembers tag boost)
  rw [Json.reread, ofJson_object tag (by rw [hms]; rfl) hknown, hform]
  simp only [hget]
  rfl

/-- The parts of a boolean condition are read where they were written. -/
theorem booleanOfMembers_reread {boost : Option Single} {must should not : List Draft}
    (hboost : ∀ x ∈ boost, x.Reproduced)
    (hmust : listOfJson (Json.rereadItems (listToJson must)) = .ok (rereadAll must))
    (hshould : listOfJson (Json.rereadItems (listToJson should)) = .ok (rereadAll should))
    (hnot : listOfJson (Json.rereadItems (listToJson not)) = .ok (rereadAll not)) :
    booleanOfMembers {} (Json.rereadMembers (booleanMembers boost must should not))
      = .ok ⟨boost.map Single.reread, rereadAll must, rereadAll should, rereadAll not⟩ := by
  -- The members are taken one at a time, so each of the two lists of members is run through.
  cases boost with
  | none =>
    simp [booleanMembers, boostMember, member?, Json.rereadMembers, tagMember, booleanOfMembers,
      Json.reread, hmust, hshould, hnot, bind, Except.bind, pure, Except.pure]
  | some x =>
    have hx : boostAttribute.read (singleJson x).reread = .ok (some x.reread) :=
      readOptional_single (hboost x rfl)
    simp [booleanMembers, boostMember, member?, Json.rereadMembers, tagMember, booleanOfMembers,
      Json.reread, hx, hmust, hshould, hnot, bind, Except.bind, pure, Except.pure]

mutual

/-- The draft of a condition is read where the condition was written. -/
theorem ofJson_reread : ∀ {d : Draft}, d.Reproduced → ofJson d.toJson.reread = .ok d.reread
  | .all _, h => ofJson_constant .all rfl h
  | .nothing _, h => ofJson_constant .nothing rfl h
  | .boolean boost must should not, h => by
    have hparts := booleanOfMembers_reread h.1 (listOfJson_rereadItems h.2.1)
      (listOfJson_rereadItems h.2.2.1) (listOfJson_rereadItems h.2.2.2)
    have hknown : unknown? (form .boolean).attributes
        (Json.rereadMembers (booleanMembers boost must should not)) = none := by
      cases boost <;> rfl
    change ofJson (.object (Json.rereadMembers (booleanMembers boost must should not))) = _
    rw [ofJson_object .boolean (by cases boost <;> rfl) hknown]
    simp only [form, hparts]
    rfl
  | .leaf _ _, h => ofJson_leaf h.1 h.2

theorem listOfJson_rereadItems : ∀ {ds : List Draft}, AllReproduced ds →
    listOfJson (Json.rereadItems (listToJson ds)) = .ok (rereadAll ds)
  | [], _ => by rw [listToJson, Json.rereadItems, listOfJson, rereadAll]
  | d :: ds, h => by
    rw [listToJson, Json.rereadItems, listOfJson, ofJson_reread h.1, listOfJson_rereadItems h.2]
    rfl

end

end Draft

end ColumnIndex.Condition
