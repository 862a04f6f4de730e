import ColumnIndex.Condition.Draft.Json
import ColumnIndex.Proofs.WrittenLiterals
import ColumnIndex.Proofs.WrittenMembers

/-!
# Written conditions

The draft of a condition that is written as JSON is read back as an equal one. Its texts and its
whole numbers come back as they are; its fractional numbers must be reproduced, and its literals
must have the form that JSON has for them, which is what the constructors of drafts make of them.

## Main definitions

* `Condition.Draft.Reproduced` — a draft all of whose literals and numbers come back.
* `Condition.Draft.reread` — the draft that is read.

Main statements: every object that is written is legible, and the draft that is read where one that
comes back was written equals it.
-/
namespace ColumnIndex.Condition

open Wire

namespace Draft

/-! ## Drafts that come back -/

/-- Whether the literals and the numbers of a leaf come back. A bound that is null is not told from
none. -/
def Leaf.Reproduced : Leaf → Prop
  | literal _ _ v => v.LiteralReproduced
  | contains _ values => ∀ v ∈ values, v.LiteralReproduced
  | range _ lower upper _ _ =>
    (∀ v ∈ lower, v ≠ .null ∧ v.LiteralReproduced) ∧ ∀ v ∈ upper, v ≠ .null ∧ v.LiteralReproduced
  | geoBox _ box =>
    box.minLatitude.Reproduced ∧ box.maxLatitude.Reproduced ∧ box.minLongitude.Reproduced ∧
      box.maxLongitude.Reproduced
  | geoDistance _ latitude longitude _ _ => latitude.Reproduced ∧ longitude.Reproduced
  | pattern .. | fuzzy .. | phrase .. => True

mutual

/-- Whether the literals and the numbers of a draft come back. -/
def Reproduced : Draft → Prop
  | all boost => ∀ x ∈ boost, x.Reproduced
  | nothing boost => ∀ x ∈ boost, x.Reproduced
  | boolean boost must should not =>
    (∀ x ∈ boost, x.Reproduced) ∧ AllReproduced must ∧ AllReproduced should ∧ AllReproduced not
  | leaf boost l => (∀ x ∈ boost, x.Reproduced) ∧ l.Reproduced

/-- Whether the literals and the numbers of several drafts come back. -/
def AllReproduced : List Draft → Prop
  | [] => True
  | d :: ds => Reproduced d ∧ AllReproduced ds

end

/-! ## Constructors and setters -/

theorem literalReproduced_literal {v : Value} (h : v.literal.DoublesReproduced) :
    v.literal.LiteralReproduced :=
  ⟨⟨v, rfl⟩, h⟩

/-- A draft with one literal comes back if the numbers of the literal do. -/
theorem reproduced_term {field : String} {v : Value} (h : v.literal.DoublesReproduced) :
    (term field v).Reproduced :=
  ⟨by simp, literalReproduced_literal h⟩

theorem reproduced_matching {field : String} {v : Value} (h : v.literal.DoublesReproduced) :
    (matching field v).Reproduced :=
  ⟨by simp, literalReproduced_literal h⟩

theorem reproduced_contains {field : String} {values : List Value}
    (h : ∀ v ∈ values, v.literal.DoublesReproduced) : (contains field values).Reproduced := by
  refine ⟨by simp, ?_⟩
  intro w hw
  obtain ⟨v, hv, rfl⟩ := List.mem_map.1 hw
  exact literalReproduced_literal (h v hv)

theorem reproduced_range (field : String) : (range field).Reproduced :=
  ⟨by simp, by simp, by simp⟩

/-- A draft still comes back with a bound that does; the bound must not be null. -/
theorem reproduced_withLower {d : Draft} {v : Value} (hd : d.Reproduced) (hv : v.literal ≠ .null)
    (h : v.literal.DoublesReproduced) : (d.withLower v).Reproduced := by
  unfold withLower
  split
  · refine ⟨hd.1, fun w hw => ?_, hd.2.2⟩
    obtain rfl := Option.some.inj hw
    exact ⟨hv, literalReproduced_literal h⟩
  · exact hd

theorem reproduced_withUpper {d : Draft} {v : Value} (hd : d.Reproduced) (hv : v.literal ≠ .null)
    (h : v.literal.DoublesReproduced) : (d.withUpper v).Reproduced := by
  unfold withUpper
  split
  · refine ⟨hd.1, hd.2.1, fun w hw => ?_⟩
    obtain rfl := Option.some.inj hw
    exact ⟨hv, literalReproduced_literal h⟩
  · exact hd

/-- A draft still comes back with a boost that does. -/
theorem reproduced_withBoost {d : Draft} {boost : Single} (hd : d.Reproduced)
    (h : boost.Reproduced) : (d.withBoost boost).Reproduced := by
  have hboost : ∀ x ∈ some boost, x.Reproduced := by simpa using h
  cases d with
  | all _ => exact hboost
  | nothing _ => exact hboost
  | boolean _ must should not => exact ⟨hboost, hd.2⟩
  | leaf _ l => exact ⟨hboost, hd.2⟩

/-! ## Drafts that are read -/

/-- The box that is read. -/
def rereadBox (box : GeoBox) : GeoBox :=
  ⟨box.minLatitude.reread, box.maxLatitude.reread, box.minLongitude.reread,
    box.maxLongitude.reread⟩

/-- The leaf that is read. -/
def Leaf.reread : Leaf → Leaf
  | literal form field v => literal form field v.reread
  | contains field values => contains field (Value.rereadItems values)
  | range field lower upper includeLower includeUpper =>
    range field (lower.map Value.reread) (upper.map Value.reread) includeLower includeUpper
  | geoBox field box => geoBox field (rereadBox box)
  | geoDistance field latitude longitude maximum minimum =>
    geoDistance field latitude.reread longitude.reread maximum minimum
  | l => l

mutual

/-- The draft that is read. -/
def reread : Draft → Draft
  | all boost => all (boost.map Single.reread)
  | nothing boost => nothing (boost.map Single.reread)
  | boolean boost must should not =>
    boolean (boost.map Single.reread) (rereadAll must) (rereadAll should) (rereadAll not)
  | leaf boost l => leaf (boost.map Single.reread) l.reread

/-- The drafts that are read. -/
def rereadAll : List Draft → List Draft
  | [] => []
  | d :: ds => reread d :: rereadAll ds

end

/-! ## Equality -/

theorem sameBoost_reread {boost : Option Single} (h : ∀ x ∈ boost, x.Reproduced) :
    Mapper.sameBoost boost (boost.map Single.reread) := by
  cases boost with
  | none => rfl
  | some x => exact (h x rfl).same_reread

theorem sameLiteral_reread {v : Option Value} (h : ∀ w ∈ v, w.LiteralReproduced) :
    sameLiteral v (v.map Value.reread) := by
  cases v with
  | none => rfl
  | some w => exact Value.same_reread (h w rfl).reproduced

theorem itemsReproduced_of_forall {values : List Value}
    (h : ∀ v ∈ values, v.LiteralReproduced) : Value.ItemsReproduced values := by
  induction values with
  | nil => trivial
  | cons v vs ih =>
    rw [List.forall_mem_cons] at h
    exact ⟨h.1.reproduced, ih h.2⟩

theorem Leaf.same_reread {l : Leaf} (h : l.Reproduced) : l.same l.reread := by
  cases l with
  | literal form field v => simp [reread, same, Value.same_reread h.reproduced]
  | contains field values =>
    simp [reread, same, Value.sameItems_rereadItems (itemsReproduced_of_forall h)]
  | range field lower upper includeLower includeUpper =>
    have hlower := sameLiteral_reread fun v hv => (h.1 v hv).2
    have hupper := sameLiteral_reread fun v hv => (h.2 v hv).2
    simp [reread, same, hlower, hupper]
  | geoBox field box =>
    obtain ⟨h₁, h₂, h₃, h₄⟩ := h
    simp [reread, same, sameBox, rereadBox, h₁.same_reread, h₂.same_reread, h₃.same_reread,
      h₄.same_reread]
  | geoDistance field latitude longitude maximum minimum =>
    simp [reread, same, h.1.same_reread, h.2.same_reread]
  | _ => simp [reread, same]

mutual

/-- The draft that is read equals the written one. -/
theorem same_reread : ∀ {d : Draft}, d.Reproduced → d.same d.reread
  | .all _, h => sameBoost_reread h
  | .nothing _, h => sameBoost_reread h
  | .boolean _ must should not, h => by
    rw [reread, same, sameBoost_reread h.1, sameAll_rereadAll h.2.1, sameAll_rereadAll h.2.2.1,
      sameAll_rereadAll h.2.2.2]
    rfl
  | .leaf _ l, h => by
    rw [reread, same, sameBoost_reread h.1, Leaf.same_reread h.2]
    rfl

theorem sameAll_rereadAll : ∀ {ds : List Draft}, AllReproduced ds → sameAll ds (rereadAll ds)
  | [], _ => rfl
  | d :: ds, h => by
    rw [rereadAll, sameAll, same_reread h.1, sameAll_rereadAll h.2]
    rfl

end

/-! ## Written members -/

/-- How a leaf is read. -/
def Leaf.reader : Leaf → LeafReader
  | pattern form .. => patternReader form
  | fuzzy .. => fuzzyReader
  | literal form .. => literalReader form
  | phrase .. => phraseReader
  | contains .. => containsReader
  | range .. => rangeReader
  | geoBox .. => geoBoxReader
  | geoDistance .. => geoDistanceReader

theorem form_tag (l : Leaf) : form l.tag = .leaf l.reader := by
  cases l with
  | pattern form field text => cases form <;> rfl
  | literal form field v => cases form <;> rfl
  | _ => rfl

/-- The boost as a member of an object. -/
def boostMember (boost : Option Single) : List (String × Json) := member? "boost" singleJson boost

theorem legible_boostMember (boost : Option Single) : Json.MembersLegible (boostMember boost) :=
  Json.membersLegible_member?.2 fun x _ => Json.Number.legible_single x

/-- The values of the members of a leaf are legible. -/
theorem Leaf.legible_members (l : Leaf) : Json.MembersLegible l.members := by
  have hnat : ∀ {n : Nat}, n < 2 ^ 64 → (natJson n).Legible := legible_natJson
  have hdouble : ∀ x : Double, (Wire.doubleJson x).Legible := Json.Number.legible_double
  cases l with
  | pattern form field text => exact ⟨trivial, trivial, trivial⟩
  | fuzzy field text maxEdits prefixLength maxExpansions transpositions =>
    simp only [members, Json.membersLegible_append, Json.membersLegible_member?]
    refine ⟨⟨⟨⟨⟨trivial, trivial, trivial⟩, fun n _ => hnat ?_⟩, fun n _ => hnat ?_⟩,
      fun n _ => hnat ?_⟩, fun _ _ => trivial⟩
    · have hn := n.toNat_lt
      omega
    · have hn := n.toNat_lt
      omega
    · have hn := n.toNat_lt
      omega
  | literal form field v => exact ⟨trivial, v.legible_written, trivial⟩
  | phrase field text slop =>
    simp only [members, Json.membersLegible_append, Json.membersLegible_member?]
    refine ⟨⟨trivial, trivial, trivial⟩, fun n _ => hnat ?_⟩
    have hn := n.toNat_lt
    omega
  | contains field values => exact ⟨trivial, Value.itemsLegible_writtenItems values, trivial⟩
  | range field lower upper includeLower includeUpper =>
    simp only [members, List.cons_append, Json.MembersLegible, Json.membersLegible_append,
      Json.membersLegible_member?]
    exact ⟨trivial, ⟨⟨fun v _ => v.legible_written, fun v _ => v.legible_written⟩,
      fun _ _ => trivial⟩, fun _ _ => trivial⟩
  | geoBox field box =>
    exact ⟨trivial, hdouble _, hdouble _, hdouble _, hdouble _, trivial⟩
  | geoDistance field latitude longitude maximum minimum =>
    simp only [members, Json.membersLegible_append, Json.membersLegible_member?]
    exact ⟨⟨trivial, hdouble _, hdouble _, trivial, trivial⟩, fun _ _ => trivial⟩

/-- The members of a leaf are attributes of its kind, in their order. -/
theorem Leaf.names_members_sublist (l : Leaf) :
    (Entries.names l.members).Sublist (l.reader.checks.map (·.1)) := by
  cases l with
  | pattern form field text => exact List.Sublist.refl _
  | fuzzy field text maxEdits prefixLength maxExpansions transpositions =>
    simp only [members, Entries.names_append]
    exact ((((List.Sublist.refl ["field", "value"]).append
      (names_member?_sublist "max_edits" _ maxEdits)).append
      (names_member?_sublist "prefix_length" _ prefixLength)).append
      (names_member?_sublist "max_expansions" _ maxExpansions)).append
      (names_member?_sublist "transpositions" _ transpositions)
  | literal form field v => exact List.Sublist.refl _
  | phrase field text slop =>
    simp only [members, Entries.names_append]
    exact (List.Sublist.refl ["field", "value"]).append (names_member?_sublist "slop" _ slop)
  | contains field values => exact List.Sublist.refl _
  | range field lower upper includeLower includeUpper =>
    simp only [members, Entries.names_append]
    exact ((((names_member?_sublist "lower" _ lower).cons_cons "field").append
      (names_member?_sublist "upper" _ upper)).append
      (names_member?_sublist "include_lower" _ includeLower)).append
      (names_member?_sublist "include_upper" _ includeUpper)
  | geoBox field box => exact List.Sublist.refl _
  | geoDistance field latitude longitude maximum minimum =>
    simp only [members, Entries.names_append]
    exact (List.Sublist.refl ["field", "latitude", "longitude", "max_distance"]).append
      (names_member?_sublist "min_distance" _ minimum)

/-- The members of a leaf with the tag and the boost. -/
def leafMembers (boost : Option Single) (l : Leaf) : List (String × Json) :=
  tagMember l.tag :: l.members ++ boostMember boost

/-- The members of a boolean condition with the tag and the boost. -/
def booleanMembers (boost : Option Single) (must should not : List Draft) :
    List (String × Json) :=
  tagMember .boolean :: boostMember boost
    ++ [("must", .list (listToJson must)), ("should", .list (listToJson should)),
      ("not", .list (listToJson not))]

theorem nodup_attributes (tag : ConditionTag) : ("type" :: (form tag).attributes).Nodup := by
  cases tag <;> decide

theorem nodup_leafMembers (boost : Option Single) (l : Leaf) :
    (Entries.names (leafMembers boost l)).Nodup := by
  refine List.Nodup.sublist ?_ (nodup_attributes l.tag)
  rw [form_tag, leafMembers, Entries.names_append]
  exact (l.names_members_sublist.cons_cons "type").append (names_member?_sublist "boost" _ boost)

theorem nodup_booleanMembers (boost : Option Single) (must should not : List Draft) :
    (Entries.names (booleanMembers boost must should not)).Nodup := by
  refine List.Nodup.sublist ?_ (nodup_attributes .boolean)
  rw [booleanMembers, Entries.names_append]
  exact ((names_member?_sublist "boost" _ boost).cons_cons "type").append (List.Sublist.refl _)

theorem nodup_constantMembers (tag : ConditionTag) (boost : Option Single) :
    (Entries.names (tagMember tag :: boostMember boost)).Nodup := by
  refine List.Nodup.sublist ?_ (show ["type", "boost"].Nodup by decide)
  exact (names_member?_sublist "boost" _ boost).cons_cons "type"

mutual

/-- Whatever is written for a draft can be read as JSON. -/
theorem legible_toJson : ∀ d : Draft, d.toJson.Legible
  | .all boost => ⟨nodup_constantMembers .all boost, trivial, legible_boostMember boost⟩
  | .nothing boost => ⟨nodup_constantMembers .nothing boost, trivial, legible_boostMember boost⟩
  | .boolean boost must should not => by
    refine ⟨nodup_booleanMembers boost must should not, trivial, ?_⟩
    exact Json.membersLegible_append.2 ⟨legible_boostMember boost, itemsLegible_listToJson must,
      itemsLegible_listToJson should, itemsLegible_listToJson not, trivial⟩
  | .leaf boost l => by
    refine ⟨nodup_leafMembers boost l, trivial, ?_⟩
    exact Json.membersLegible_append.2 ⟨l.legible_members, legible_boostMember boost⟩

theorem itemsLegible_listToJson : ∀ ds : List Draft, Json.ItemsLegible (listToJson ds)
  | [] => trivial
  | d :: ds => ⟨legible_toJson d, itemsLegible_listToJson ds⟩

end

end Draft

end ColumnIndex.Condition
