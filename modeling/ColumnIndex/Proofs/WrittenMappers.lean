import ColumnIndex.Mapper.Draft.Json
import ColumnIndex.Proofs.WrittenConditions

/-!
# Written mappers

The draft of a mapper that is written as JSON is read back as an equal one, whatever its kind and
its options are. Each option is written under a name of its own, and the reader of the kind knows
all names that are written for the kind.

## Main definitions

* `Mapper.Draft.Reproduced` — a draft whose boost comes back.
* `Mapper.Draft.reread` — the draft that is read.
* `Mapper.Draft.members` — the members of the object of a draft.

Main statement: `Mapper.Draft.parse_text`.
-/
namespace ColumnIndex

open Wire

/-- Members without lists and objects have no depth. -/
theorem Json.memberDepth_eq_zero {ms : List (String × Json)} (h : ∀ m ∈ ms, m.2.depth = 0) :
    memberDepth ms = 0 := by
  induction ms with
  | nil => rfl
  | cons m ms ih =>
    rw [List.forall_mem_cons] at h
    rw [memberDepth, h.1, ih h.2, Nat.max_self]

/-! ## Checks in parts -/

namespace Wire

variable {first second : List (String × Reader Unit)} {ms : List (String × Json)}

/-- Members that have the forms of all attributes have those of the first of them. -/
theorem checkAll_left (h : ∀ m ∈ ms, Fits (first ++ second) m) : checkAll first ms = .ok () := by
  refine checkAll_of_forall fun m hm check hcheck => (h m hm).check_eq_ok ?_
  rw [List.lookup_append, hcheck, Option.some_or]

/-- They have those of the others too, if these have names of their own. -/
theorem checkAll_right (hnames : ((first ++ second).map (·.1)).Nodup)
    (h : ∀ m ∈ ms, Fits (first ++ second) m) : checkAll second ms = .ok () := by
  refine checkAll_of_forall fun m hm check hcheck => (h m hm).check_eq_ok ?_
  have hfirst : first.lookup m.1 = none := by
    refine Entries.lookup_eq_none_iff.2 fun hname => ?_
    rw [List.map_append, List.nodup_append] at hnames
    exact hnames.2.2 _ hname _ (mem_names_of_lookup hcheck) rfl
  rw [List.lookup_append, hfirst, Option.none_or, hcheck]

/-- An attribute is read where its member was written. -/
theorem get_reread {α : Type} {name : String} {read : Reader α} (write : α → Json) {v : Option α}
    (hlookup : ms.lookup name = (Json.rereadMembers (member? name write v)).lookup name)
    (hread : ∀ a, readOptional read (write a).reread = .ok (some a)) :
    (Attribute.optional name read).get ms = .ok v := by
  rw [Json.rereadMembers_member?, lookup_member?_self] at hlookup
  exact get_written hlookup hread

end Wire

namespace Mapper.Draft

/-! ## Drafts that come back -/

/-- Whether the boost of a draft comes back. All other options do. -/
def Reproduced (d : Draft) : Prop := ∀ x ∈ d.boost, x.Reproduced

/-- The draft that is read. -/
def reread (d : Draft) : Draft := { d with boost := d.boost.map Single.reread }

/-- The draft that is read equals the written one. -/
theorem same_reread {d : Draft} (h : d.Reproduced) : d.same d.reread := by
  simp [same, reread, Condition.Draft.sameBoost_reread h]

/-! ## Written members -/

/-- The options that all mappers have, as members of an object. -/
def optionMembers (d : Draft) : List (String × Json) :=
  member? "indexed" .bool d.indexed ++ member? "sorted" .bool d.sorted
    ++ member? "column" .text d.column ++ member? "boost" singleJson d.boost

/-- The members of the object of a draft. -/
def members (d : Draft) : List (String × Json) :=
  ("type", .text d.kind.tag.name) :: d.optionMembers ++ d.kind.members

theorem toJson_eq (d : Draft) : d.toJson = .object d.members := by
  simp [toJson, members, optionMembers]

/-- The checks of all attributes of a kind. -/
def checks (tag : MapperTag) : List (String × Reader Unit) :=
  optionChecks ++ (kindReader tag).checks

/-- The tag and the attributes of a kind have names of their own. -/
theorem nodup_attributes (tag : MapperTag) : ("type" :: (checks tag).map (·.1)).Nodup := by
  cases tag <;> decide

/-- The options of a kind are attributes of the kind, in their order. -/
theorem Kind.names_members_sublist (k : Kind) :
    (Entries.names k.members).Sublist ((kindReader k.tag).checks.map (·.1)) := by
  cases k with
  | bigDecimal whole fraction =>
    rw [members, Entries.names_append]
    exact (names_member?_sublist "integer_digits" _ whole).append
      (names_member?_sublist "decimal_digits" _ fraction)
  | string caseSensitive => exact names_member?_sublist "case_sensitive" _ caseSensitive
  | text analyzer => exact names_member?_sublist "analyzer" _ analyzer
  | date pattern => exact names_member?_sublist "pattern" _ pattern
  | geoPoint latitude longitude levels =>
    rw [members, Entries.names_append, Entries.names_append]
    exact ((names_member?_sublist "latitude" _ latitude).append
      (names_member?_sublist "longitude" _ longitude)).append
        (names_member?_sublist "max_levels" _ levels)
  | _ => exact List.Sublist.refl _

theorem names_optionMembers_sublist (d : Draft) :
    (Entries.names d.optionMembers).Sublist (optionChecks.map (·.1)) := by
  simp only [optionMembers, Entries.names_append]
  exact (((names_member?_sublist "indexed" _ d.indexed).append
    (names_member?_sublist "sorted" _ d.sorted)).append
    (names_member?_sublist "column" _ d.column)).append (names_member?_sublist "boost" _ d.boost)

theorem nodup_members (d : Draft) : (Entries.names d.members).Nodup := by
  refine List.Nodup.sublist ?_ (nodup_attributes d.kind.tag)
  rw [members, Entries.names_append, checks, List.map_append]
  exact (d.names_optionMembers_sublist.cons_cons "type").append d.kind.names_members_sublist

/-- The values of the options of a kind are legible. -/
theorem Kind.legible_members (k : Kind) : Json.MembersLegible k.members := by
  have hword (n : UInt32) : (natJson n.toNat).Legible := by
    have hn := n.toNat_lt
    exact legible_natJson (by omega)
  have hbyte (n : UInt8) : (natJson n.toNat).Legible := by
    have hn := n.toNat_lt
    exact legible_natJson (by omega)
  cases k with
  | bigDecimal whole fraction =>
    simp only [members, Json.membersLegible_append, Json.membersLegible_member?]
    exact ⟨fun n _ => hword n, fun n _ => hword n⟩
  | string caseSensitive => exact Json.membersLegible_member?.2 fun _ _ => trivial
  | text analyzer => exact Json.membersLegible_member?.2 fun _ _ => trivial
  | date pattern => exact Json.membersLegible_member?.2 fun _ _ => trivial
  | geoPoint latitude longitude levels =>
    simp only [members, Json.membersLegible_append, Json.membersLegible_member?]
    exact ⟨⟨fun _ _ => trivial, fun _ _ => trivial⟩, fun n _ => hbyte n⟩
  | _ => trivial

/-- Whatever is written for a draft can be read as JSON. -/
theorem legible_toJson (d : Draft) : d.toJson.Legible := by
  rw [toJson_eq]
  refine ⟨d.nodup_members, trivial, ?_⟩
  refine Json.membersLegible_append.2 ⟨?_, d.kind.legible_members⟩
  simp only [optionMembers, Json.membersLegible_append, Json.membersLegible_member?]
  exact ⟨⟨⟨fun _ _ => trivial, fun _ _ => trivial⟩, fun _ _ => trivial⟩,
    fun x _ => Json.Number.legible_single x⟩

theorem Kind.depth_members (k : Kind) : ∀ m ∈ k.members, m.2.depth = 0 := by
  cases k with
  | bigDecimal whole fraction =>
    simp only [members, List.forall_mem_append, forall_mem_member?]
    exact ⟨fun _ _ => rfl, fun _ _ => rfl⟩
  | string caseSensitive => exact forall_mem_member?.2 fun _ _ => rfl
  | text analyzer => exact forall_mem_member?.2 fun _ _ => rfl
  | date pattern => exact forall_mem_member?.2 fun _ _ => rfl
  | geoPoint latitude longitude levels =>
    simp only [members, List.forall_mem_append, forall_mem_member?]
    exact ⟨⟨fun _ _ => rfl, fun _ _ => rfl⟩, fun _ _ => rfl⟩
  | _ => exact List.forall_mem_nil _

/-- No list and no object stands in the object of a draft. -/
theorem depth_toJson (d : Draft) : d.toJson.depth = 1 := by
  have hmembers : ∀ m ∈ d.members, m.2.depth = 0 := by
    simp only [members, optionMembers, List.cons_append, List.forall_mem_cons,
      List.forall_mem_append, forall_mem_member?]
    refine ⟨rfl, ⟨⟨⟨?_, ?_⟩, ?_⟩, ?_⟩, d.kind.depth_members⟩
    all_goals exact fun _ _ => rfl
  rw [toJson_eq, Json.depth, Json.memberDepth_eq_zero hmembers]

/-! ## Read members -/

/-- The options of a kind have the forms of its attributes. -/
theorem Kind.fits_members (k : Kind) :
    ∀ m ∈ Json.rereadMembers k.members, Fits (checks k.tag) m := by
  cases k with
  | bigDecimal whole fraction =>
    simp only [members, Json.rereadMembers_append, Json.rereadMembers_member?,
      List.forall_mem_append, forall_mem_member?]
    refine ⟨fun n _ => ?_, fun n _ => ?_⟩
    · exact fits_of_read (.optional "integer_digits" readWord) rfl (readOptional_word n)
    · exact fits_of_read (.optional "decimal_digits" readWord) rfl (readOptional_word n)
  | string caseSensitive =>
    simp only [members, Json.rereadMembers_member?, forall_mem_member?]
    exact fun b _ => fits_of_read (.optional "case_sensitive" readBool) rfl (readOptional_bool b)
  | text analyzer =>
    simp only [members, Json.rereadMembers_member?, forall_mem_member?]
    exact fun s _ => fits_of_read (.optional "analyzer" readText) rfl (readOptional_text s)
  | date pattern =>
    simp only [members, Json.rereadMembers_member?, forall_mem_member?]
    exact fun s _ => fits_of_read (.optional "pattern" readText) rfl (readOptional_text s)
  | geoPoint latitude longitude levels =>
    simp only [members, Json.rereadMembers_append, Json.rereadMembers_member?,
      List.forall_mem_append, forall_mem_member?]
    refine ⟨⟨fun s _ => ?_, fun s _ => ?_⟩, fun n _ => ?_⟩
    · exact fits_of_read (.optional "latitude" readText) rfl (readOptional_text s)
    · exact fits_of_read (.optional "longitude" readText) rfl (readOptional_text s)
    · exact fits_of_read (.optional "max_levels" readByte) rfl (readOptional_byte n)
  | _ => exact List.forall_mem_nil _

/-- The options that all mappers have are attributes of each kind. -/
theorem fits_optionMembers {d : Draft} (h : d.Reproduced) (tag : MapperTag) :
    ∀ m ∈ Json.rereadMembers d.optionMembers, Fits (checks tag) m := by
  simp only [optionMembers, Json.rereadMembers_append, Json.rereadMembers_member?,
    List.forall_mem_append, forall_mem_member?]
  refine ⟨⟨⟨fun b _ => ?_, fun b _ => ?_⟩, fun s _ => ?_⟩, fun x hx => ?_⟩
  · exact fits_of_read indexedAttribute rfl (readOptional_bool b)
  · exact fits_of_read sortedAttribute rfl (readOptional_bool b)
  · exact fits_of_read columnAttribute rfl (readOptional_text s)
  · exact fits_of_read boostAttribute rfl (readOptional_single (h x hx))

/-- A kind with one option is read as its option is. -/
theorem read_optionReader {α : Type} {a : Attribute α} {kind : α → Kind} {x : α}
    {ms : List (String × Json)} (h : a.get ms = .ok x) :
    (optionReader a kind).read ms = .ok (kind x) := by
  change (a.get ms).map kind = _
  rw [h]
  rfl

/-- The members of an object give a kind the options that were written for it. -/
theorem Kind.read_members (k : Kind) {ms : List (String × Json)}
    (hms : ∀ name, name ∉ "type" :: optionChecks.map (·.1) →
      ms.lookup name = (Json.rereadMembers k.members).lookup name) :
    (kindReader k.tag).read ms = .ok k := by
  cases k with
  | bigDecimal whole fraction =>
    have hwhole : (Attribute.optional "integer_digits" readWord).get ms = .ok whole := by
      refine get_reread (natJson ·.toNat) ?_ readOptional_word
      rw [hms "integer_digits" (by decide)]
      simp [members]
    have hfraction : (Attribute.optional "decimal_digits" readWord).get ms = .ok fraction := by
      refine get_reread (natJson ·.toNat) ?_ readOptional_word
      rw [hms "decimal_digits" (by decide)]
      simp [members]
    change bigDecimalReader.read ms = _
    simp only [bigDecimalReader, hwhole, hfraction]
    rfl
  | string caseSensitive =>
    exact read_optionReader (get_reread .bool (hms "case_sensitive" (by decide)) readOptional_bool)
  | text analyzer =>
    exact read_optionReader (get_reread .text (hms "analyzer" (by decide)) readOptional_text)
  | date pattern =>
    exact read_optionReader (get_reread .text (hms "pattern" (by decide)) readOptional_text)
  | geoPoint latitude longitude levels =>
    have hlatitude : (Attribute.optional "latitude" readText).get ms = .ok latitude := by
      refine get_reread .text ?_ readOptional_text
      rw [hms "latitude" (by decide)]
      simp [members]
    have hlongitude : (Attribute.optional "longitude" readText).get ms = .ok longitude := by
      refine get_reread .text ?_ readOptional_text
      rw [hms "longitude" (by decide)]
      simp [members]
    have hlevels : (Attribute.optional "max_levels" readByte).get ms = .ok levels := by
      refine get_reread (natJson ·.toNat) ?_ readOptional_byte
      rw [hms "max_levels" (by decide)]
      simp [members]
    change geoPointReader.read ms = _
    simp only [geoPointReader, hlatitude, hlongitude, hlevels]
    rfl
  | _ => rfl

/-! ## Read drafts -/

theorem rereadMembers_members (d : Draft) : Json.rereadMembers d.members =
    ("type", .text d.kind.tag.name) ::
      (Json.rereadMembers d.optionMembers ++ Json.rereadMembers d.kind.members) := by
  rw [← Json.rereadMembers_append]
  rfl

/-- An option that all mappers have is found among these. -/
theorem lookup_option (d : Draft) {name : String} (h : name ∈ optionChecks.map (·.1)) :
    (Json.rereadMembers d.members).lookup name =
      (Json.rereadMembers d.optionMembers).lookup name := by
  have hattributes := nodup_attributes d.kind.tag
  rw [checks, List.map_append, List.nodup_cons, List.nodup_append] at hattributes
  have htype : name ≠ "type" := by
    rintro rfl
    exact hattributes.1 (List.mem_append_left _ h)
  have hkind : (Json.rereadMembers d.kind.members).lookup name = none := by
    refine Entries.lookup_eq_none_iff.2 fun hname => ?_
    rw [Json.names_rereadMembers] at hname
    exact hattributes.2.2.2 _ h _ (d.kind.names_members_sublist.mem hname) rfl
  rw [rereadMembers_members, List.lookup_cons, beq_false_of_ne htype, lookup_append, hkind,
    Option.or_none]

/-- An option of the kind is found among those of the kind. -/
theorem lookup_kind (d : Draft) {name : String} (h : name ∉ "type" :: optionChecks.map (·.1)) :
    (Json.rereadMembers d.members).lookup name =
      (Json.rereadMembers d.kind.members).lookup name := by
  rw [List.mem_cons, not_or] at h
  have hoption : (Json.rereadMembers d.optionMembers).lookup name = none := by
    refine Entries.lookup_eq_none_iff.2 fun hname => ?_
    rw [Json.names_rereadMembers] at hname
    exact h.2 (d.names_optionMembers_sublist.mem hname)
  rw [rereadMembers_members, List.lookup_cons, beq_false_of_ne h.1, lookup_append, hoption,
    Option.none_or]

/-- All members have the forms of attributes of the kind. -/
theorem fits_members {d : Draft} (h : d.Reproduced) :
    ∀ m ∈ Json.rereadMembers d.members, Fits (checks d.kind.tag) m := by
  rw [rereadMembers_members, List.forall_mem_cons, List.forall_mem_append]
  refine ⟨.inl ⟨rfl, Entries.lookup_eq_none_iff.2 ?_⟩, fits_optionMembers h _, d.kind.fits_members⟩
  exact (List.nodup_cons.1 (nodup_attributes d.kind.tag)).1

/-- The draft of a mapper is read where the mapper was written. -/
theorem ofMembers_reread {d : Draft} (h : d.Reproduced) :
    ofMembers (kindReader d.kind.tag) (Json.rereadMembers d.members) = .ok d.reread := by
  have hfits := fits_members h
  have hkindChecks := checkAll_right (nodup_attributes d.kind.tag).of_cons hfits
  have hoptionChecks := checkAll_left hfits
  have hkind := d.kind.read_members fun name => d.lookup_kind
  have hindexed : indexedAttribute.get (Json.rereadMembers d.members) = .ok d.indexed := by
    refine get_reread .bool ?_ readOptional_bool
    rw [d.lookup_option (by decide)]
    simp [optionMembers]
  have hsorted : sortedAttribute.get (Json.rereadMembers d.members) = .ok d.sorted := by
    refine get_reread .bool ?_ readOptional_bool
    rw [d.lookup_option (by decide)]
    simp [optionMembers]
  have hcolumn : columnAttribute.get (Json.rereadMembers d.members) = .ok d.column := by
    refine get_reread .text ?_ readOptional_text
    rw [d.lookup_option (by decide)]
    simp [optionMembers]
  have hboost : boostAttribute.get (Json.rereadMembers d.members)
      = .ok (d.boost.map Single.reread) := by
    refine get_optional ?_ fun x hx => readOptional_single (h x hx)
    rw [d.lookup_option (by decide)]
    simp [optionMembers]
  rw [ofMembers, hkindChecks, hoptionChecks, hkind, hindexed, hsorted, hcolumn, hboost]
  rfl

theorem ofJson_reread {d : Draft} (h : d.Reproduced) : ofJson d.toJson.reread = .ok d.reread := by
  have htype : (Json.rereadMembers d.members).lookup "type" = some (.text d.kind.tag.name) := by
    rw [rereadMembers_members]
    rfl
  have hknown : unknown? ((checks d.kind.tag).map (·.1)) (Json.rereadMembers d.members) = none :=
    unknown?_eq_none (fun _ hname => hname) (fits_members h)
  rw [checks] at hknown
  rw [toJson_eq, Json.reread, ofJson]
  simp only [Tagged.ofJson, htype, Outcome.ok_bind, MapperTag.ofName?_name, Tagged.only, hknown,
    Tagged.within, ofMembers_reread h]
  rfl

/-- The text of a draft is read back. -/
theorem parse_text {d : Draft} (h : d.Reproduced) : parse d.text = .ok d.reread := by
  rw [parse, text, Json.parse_compact d.legible_toJson, depth_toJson, if_pos (by decide)]
  exact ofJson_reread h

end Mapper.Draft

end ColumnIndex
