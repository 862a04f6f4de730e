import ColumnIndex.Mapper.Draft.Json
import ColumnIndex.Proofs.ConditionGrammar

/-!
# Objects inside definitions

A tree that is read as a condition has objects only where it has conditions, and a tree that is
read as a mapper is its only object. So every object in such a tree, however deep, has a known tag
and no attribute that the tag does not know.

## Main definitions

* `Json.Inside` — the trees that stand anywhere in a tree.
* `Mapper.attributes` — the attributes of each kind of mappers.
* `Condition.AllKnown`, `Mapper.AllKnown` — trees in which every object is known.

Main statements: `Condition.allKnown_of_ofJson`, `Mapper.allKnown_of_ofJson`.
-/
namespace ColumnIndex

open Outcome Wire

/-! ## Trees inside trees -/

/-- The first tree is the second one, or stands anywhere in it. -/
inductive Json.Inside : Json → Json → Prop
  | root (j : Json) : Inside j j
  | item {items : List Json} {item inner : Json} (hitem : item ∈ items) (h : Inside inner item) :
      Inside inner (.list items)
  | member {members : List (String × Json)} {name : String} {value inner : Json}
      (hmember : (name, value) ∈ members) (h : Inside inner value) : Inside inner (.object members)

namespace Condition

variable {members : List (String × Json)} {j : Json}

/-- No object stands in a tree without objects. -/
theorem ObjectFree.not_inside (h : ObjectFree j) : ¬Json.Inside (.object members) j := by
  intro hinside
  induction h with
  | list _ ih =>
    cases hinside with
    | item hitem hinner => exact ih _ hitem hinner
  | _ => cases hinside

/-- What has a shape has no objects. -/
theorem Shape.Holds.objectFree {shape : Shape} (h : shape.Holds j) : ObjectFree j := by
  cases shape with
  | literal => exact h
  | literals =>
    cases j with
    | list items => exact .list h
    | _ => exact h.elim
  | text =>
    cases j with
    | text s => exact .text s
    | _ => exact h.elim
  | bool =>
    cases j with
    | bool b => exact .bool b
    | _ => exact h.elim
  | number | byte | word =>
    cases j with
    | number n => exact .number n
    | _ => exact h.elim

/-! ## Conditions -/

/-- Every object in the tree has a known tag and only attributes that the tag knows. -/
def AllKnown (j : Json) : Prop := ∀ members, Json.Inside (.object members) j →
  ∃ tag : ConditionTag, members.lookup "type" = some (.text tag.name) ∧
    ∀ name ∈ Entries.names members, name = "type" ∨ name ∈ Entries.names (rules tag)

/-- The objects in a tree of the grammar are the conditions in it. -/
theorem Grammatical.allKnown (h : Grammatical j) (hj : j.Distinct) : AllKnown j := by
  intro inner hinside
  induction h with
  | @object members tag htag hknown hmet _ ih =>
    cases hj with
    | object hnames hvalues =>
      cases hinside with
      | root => exact ⟨tag, htag, hknown⟩
      | @member _ name value _ hmember hinner =>
        have hlookup := (Entries.lookup_eq_some_iff hnames).2 hmember
        have hfree : ¬ObjectFree value := fun hvalue => hvalue.not_inside hinner
        rcases hknown name (List.mem_map_of_mem hmember) with rfl | hname
        · rw [htag] at hlookup
          cases hlookup
          exact absurd (.text _) hfree
        · obtain ⟨⟨_, rule⟩, hrule, rfl⟩ := List.mem_map.1 hname
          have hvalue := hmet _ hrule
          rw [hlookup] at hvalue
          cases rule with
          | required shape => exact absurd hvalue.objectFree hfree
          | optional shape =>
            rcases hvalue with rfl | hvalue
            · exact absurd .null hfree
            · exact absurd hvalue.objectFree hfree
          | conditions =>
            obtain ⟨items, rfl⟩ := hvalue
            cases hinner with
            | item hitem hinner =>
              cases hvalues _ _ hmember with
              | list hitems => exact ih _ _ hrule hlookup _ hitem (hitems _ hitem) hinner

/-- What is read as a condition has no unknown attribute at any depth. -/
theorem allKnown_of_ofJson {d : Draft} (hj : j.Distinct) (h : Draft.ofJson j = .ok d) :
    AllKnown j :=
  ((isRead_iff_of_distinct hj).1.1 ⟨d, h⟩).allKnown hj

end Condition

/-! ## Mappers -/

namespace Mapper

/-- The attributes that only some kinds have. -/
def ownAttributes : MapperTag → List String
  | .bigDecimal => ["integer_digits", "decimal_digits"]
  | .string => ["case_sensitive"]
  | .text => ["analyzer"]
  | .date => ["pattern"]
  | .geoPoint => ["latitude", "longitude", "max_levels"]
  | _ => []

/-- The attributes of each kind: those that all kinds have, and its own ones. -/
def attributes (tag : MapperTag) : List String :=
  ["indexed", "sorted", "column", "boost"] ++ ownAttributes tag

/-- Every object in the tree has a known tag and only attributes that the tag knows. -/
def AllKnown (j : Json) : Prop := ∀ members, Json.Inside (.object members) j →
  ∃ tag : MapperTag, members.lookup "type" = some (.text tag.name) ∧
    ∀ name ∈ Entries.names members, name = "type" ∨ name ∈ attributes tag

/-- The checks of all attributes of a kind are named for them. -/
theorem names_checks (tag : MapperTag) :
    (optionChecks ++ (kindReader tag).checks).map (·.1) = attributes tag := by
  cases tag <;> rfl

theorem tag_of_ofName? {name : String} {tag : MapperTag} (h : MapperTag.ofName? name = some tag) :
    name = tag.name := by
  have hname := List.find?_some h
  simpa using (eq_of_beq hname).symm

/-! ### Options are no objects -/

/-- Only values without objects pass the check. -/
def PassesFlat (check : String × Reader Unit) : Prop :=
  ∀ j, check.2 j = .ok () → Condition.ObjectFree j

theorem passesFlat_optional {α : Type} {shape : Condition.Shape} {read : Reader α} (name : String)
    (h : shape.Reads read) : PassesFlat (Attribute.optional name read).check := by
  intro j hj
  obtain ⟨x, hx, -⟩ := map_eq_ok.1 hj
  change readOptional read j = .ok x at hx
  unfold readOptional at hx
  split at hx
  · exact .null
  · obtain ⟨a, ha, -⟩ := map_eq_ok.1 hx
    exact ((h _).1 ⟨a, ha⟩).objectFree

theorem passesFlat_checks (tag : MapperTag) :
    ∀ check ∈ optionChecks ++ (kindReader tag).checks, PassesFlat check := by
  have htext (name : String) := passesFlat_optional name Condition.reads_text
  have hbool (name : String) := passesFlat_optional name Condition.reads_bool
  have hbyte (name : String) := passesFlat_optional name Condition.reads_byte
  have hword (name : String) := passesFlat_optional name Condition.reads_word
  have hoptions : ∀ check ∈ optionChecks, PassesFlat check := by
    simp only [optionChecks, List.forall_mem_cons]
    exact ⟨hbool _, hbool _, htext _, passesFlat_optional _ Condition.reads_single,
      List.forall_mem_nil _⟩
  have hown : ∀ check ∈ (kindReader tag).checks, PassesFlat check := by
    cases tag with
    | bigDecimal => exact List.forall_mem_cons.2 ⟨hword _, List.forall_mem_singleton.2 (hword _)⟩
    | string => exact List.forall_mem_singleton.2 (hbool _)
    | text | date => exact List.forall_mem_singleton.2 (htext _)
    | geoPoint =>
      exact List.forall_mem_cons.2 ⟨htext _,
        List.forall_mem_cons.2 ⟨htext _, List.forall_mem_singleton.2 (hbyte _)⟩⟩
    | _ => exact List.forall_mem_nil _
  exact List.forall_mem_append.2 ⟨hoptions, hown⟩

/-- Members that pass all checks pass those of their names. -/
theorem forall_of_checkAll {checks : List (String × Reader Unit)} {ms : List (String × Json)}
    (h : checkAll checks ms = .ok ()) :
    ∀ m ∈ ms, ∀ check, checks.lookup m.1 = some check → check m.2 = .ok () := by
  induction ms with
  | nil => exact List.forall_mem_nil _
  | cons m ms ih =>
    obtain ⟨name, value⟩ := m
    rw [checkAll] at h
    cases hlookup : checks.lookup name with
    | none =>
      simp only [hlookup] at h
      refine List.forall_mem_cons.2 ⟨fun check hcheck => ?_, ih h⟩
      rw [hlookup] at hcheck
      cases hcheck
    | some own =>
      simp only [hlookup, bind_eq_ok] at h
      obtain ⟨_, hown, h⟩ := h
      refine List.forall_mem_cons.2 ⟨fun check hcheck => ?_, ih h⟩
      rw [hlookup] at hcheck
      cases hcheck
      exact hown

theorem exists_lookup_of_mem {checks : List (String × Reader Unit)} {name : String}
    (h : name ∈ checks.map (·.1)) : ∃ check, checks.lookup name = some check := by
  rw [← Option.isSome_iff_exists, List.lookup_isSome_iff]
  obtain ⟨check, hcheck, rfl⟩ := List.mem_map.1 h
  exact ⟨check, hcheck, by simp⟩

/-- An attribute of the kind that was read has no objects in it. -/
theorem objectFree_of_ofMembers {tag : MapperTag} {members : List (String × Json)} {d : Draft}
    (h : Draft.ofMembers (kindReader tag) members = .ok d) {name : String} {value : Json}
    (hmember : (name, value) ∈ members) (hname : name ∈ attributes tag) :
    Condition.ObjectFree value := by
  simp only [Draft.ofMembers, bind_eq_ok] at h
  obtain ⟨_, hkind, _, hoptions, -⟩ := h
  have hflat := passesFlat_checks tag
  have hpass {checks : List (String × Reader Unit)}
      (hchecks : ∀ check ∈ checks, check ∈ optionChecks ++ (kindReader tag).checks)
      (hall : checkAll checks members = .ok ()) (hname : name ∈ checks.map (·.1)) :
      Condition.ObjectFree value := by
    obtain ⟨check, hcheck⟩ := exists_lookup_of_mem hname
    obtain ⟨before, after, hsplit, -⟩ := List.lookup_eq_some_iff.1 hcheck
    have hmem : (name, check) ∈ checks := by simp [hsplit]
    exact hflat _ (hchecks _ hmem) value (forall_of_checkAll hall _ hmember check hcheck)
  rw [← names_checks, List.map_append, List.mem_append] at hname
  rcases hname with hname | hname
  · exact hpass (fun _ => List.mem_append_left _) hoptions hname
  · exact hpass (fun _ => List.mem_append_right _) hkind hname

/-- What is read as a mapper has no unknown attribute, and no object in an attribute. -/
theorem allKnown_of_ofJson {j : Json} {d : Draft} (hj : j.Distinct) (h : Draft.ofJson j = .ok d) :
    AllKnown j := by
  rw [Draft.ofJson, bind_eq_ok] at h
  obtain ⟨t, ht, h⟩ := h
  cases hname : MapperTag.ofName? t.tag with
  | none => simp [hname] at h
  | some tag =>
    simp only [hname, bind_eq_ok] at h
    obtain ⟨_, honly, h⟩ := h
    rw [Tagged.within, mapError_eq_ok] at h
    cases j with
    | object members =>
      obtain ⟨htype, hmembers⟩ := Condition.tagged_eq_ok ht
      rw [Condition.only_eq_ok, hmembers, Condition.unknown?_eq_none_iff, names_checks] at honly
      rw [tag_of_ofName? hname] at htype
      rw [hmembers] at h
      intro inner hinside
      cases hj with
      | object hnames hvalues =>
        cases hinside with
        | root => exact ⟨tag, htype, honly⟩
        | @member _ name value _ hmember hinner =>
          refine absurd hinner (Condition.ObjectFree.not_inside ?_)
          rcases honly name (List.mem_map_of_mem hmember) with rfl | hknown
          · have hlookup := (Entries.lookup_eq_some_iff hnames).2 hmember
            rw [htype] at hlookup
            cases hlookup
            exact .text _
          · exact objectFree_of_ofMembers h hmember hknown
    | _ => cases ht

end Mapper

end ColumnIndex
