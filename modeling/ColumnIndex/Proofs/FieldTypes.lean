import ColumnIndex.Proofs.RowFields
import ColumnIndex.Proofs.SchemaDrafts
import ColumnIndex.Proofs.SearchMeaning

/-!
# One type for each field

Rows, conditions and criteria of the order each take the type of a field from another place: from
the payloads of its mapper, from the literals that the mapper reads, and from a table of the kinds
of mappers. In a built schema they agree.

## Main definitions

* `Query.payloads` — what the terms and ranges of a query look for.
* `Schema.Agrees` — all that is made of a field has one type.
* `Schema.IsTyped` — the fields of a schema agree, and sorting is refused where it should be.
* `Field.sorts`, `Mapper.nameFor` — the roles of fields, and the name that belongs to a role.

Main statement: `Schema.isTyped_of_build`.
-/
namespace ColumnIndex

open Outcome

/-! ## Payloads of queries -/

namespace Query

mutual

/-- What a query looks for: the payloads of terms and the bounds of ranges, each with its field. -/
def payloads : Query → List (String × FieldValue)
  | term field value => [(field, value)]
  | range field lower upper _ _ => (lower.toList ++ upper.toList).map fun base => (field, base)
  | boolean clauses => clausePayloads clauses
  | boost query _ => payloads query
  | constantScore query => payloads query
  | _ => []

/-- What the clauses of a boolean query look for. -/
def clausePayloads : List (Occur × Query) → List (String × FieldValue)
  | [] => []
  | (_, query) :: clauses => payloads query ++ clausePayloads clauses

end

theorem clausePayloads_eq_flatMap (clauses : List (Occur × Query)) :
    clausePayloads clauses = clauses.flatMap fun clause => clause.2.payloads := by
  induction clauses with
  | nil => simp [clausePayloads]
  | cons clause clauses ih => simp [clausePayloads, ih]

@[simp] theorem clausePayloads_append (a b : List (Occur × Query)) :
    clausePayloads (a ++ b) = clausePayloads a ++ clausePayloads b := by
  simp [clausePayloads_eq_flatMap]

/-- A boost adds nothing to look for. -/
@[simp] theorem payloads_boosted (query : Query) (factor : Single) :
    (query.boosted factor).payloads = query.payloads := by
  unfold boosted
  split
  · rfl
  · rw [payloads]

end Query

namespace Schema

/-! ## What is said of a schema -/

/-- All that is made of a field has the type: the fields of a row but for geohashes, what queries
look for, and what the engine compares to sort by the field. -/
structure Agrees (s : Schema) (field : String) (m : Mapper) (type : PayloadType) : Prop where
  rows : ∀ row fields, (m.fields row).result = .ok fields → ∀ f ∈ fields, f.kind ≠ .geoHash →
    f.value.type = type
  conditions : ∀ (c : Condition) q, (c.compile s).result = .ok q → ∀ base,
    (field, base) ∈ q.payloads → base.type = type
  searches : ∀ (search : Search) compiled, (search.compile s).result = .ok compiled → ∀ base,
    (field, base) ∈ compiled.query.payloads → base.type = type
  sorts : m.sorted → ∀ reverse, ∃ kind,
    s.sortField field reverse = .ok ⟨field ++ ".sort", kind, reverse⟩ ∧ kind.payloadType = type ∧
      ∀ row fields, (m.fields row).result = .ok fields → ∀ f ∈ fields, f.docValues? ≠ none →
        f.name = field ++ ".sort"

/-- The fields of a schema have a type each. Sorting is refused for what is not a field or not
sorted by, and the criteria of a search keep their order. -/
structure IsTyped (s : Schema) : Prop where
  agrees : ∀ field m, s.mapper? field = some m → s.Agrees field m m.tag.payloadType
  sortRefused : ∀ field reverse, (∃ fault, s.sortField field reverse = .error fault) ↔
    s.mapper? field = none ∨ ∃ m, s.mapper? field = some m ∧ m.sorted = false
  sortFails : ∀ field reverse e, (s.sortField field reverse).mapError report = .error e →
    e.errorClass = .compilation
  ordered : ∀ (search : Search) compiled, (search.compile s).result = .ok compiled →
    List.Forall₂ (fun request sort => s.sortField request.field request.reverse = .ok sort)
      search.sort compiled.sort

/-- The payload has the type of the mapper of its field. -/
def HasType (s : Schema) (p : String × FieldValue) : Prop :=
  ∃ m, s.mapper? p.1 = some m ∧ p.2.type = m.tag.payloadType

theorem type_of_hasType {s : Schema} {field : String} {m : Mapper} {base : FieldValue}
    (hs : s.mapper? field = some m) (h : s.HasType (field, base)) :
    base.type = m.tag.payloadType := by
  obtain ⟨m', hs', htype⟩ := h
  rw [htype, Option.some.inj (hs.symm.trans hs')]

end Schema

/-! ## Conditions -/

namespace Condition

variable {s : Schema} {field : String} {m : Mapper}

theorem hasType_payload (hs : s.mapper? field = some m) (hm : m.tag.isSpatial = false) {v : Value}
    {base : FieldValue} (h : m.coerce m.field v = .ok (some base)) : s.HasType (field, base) :=
  ⟨m, hs, Mapper.type_of_coerce hm h⟩

theorem hasType_bound (hs : s.mapper? field = some m) (hm : m.tag.isSpatial = false)
    {bound : Option Value} {base : Option FieldValue} (h : IsBound m bound base) :
    ∀ b ∈ base, s.HasType (field, b) := by
  intro b hb
  cases bound with
  | none =>
    rw [show base = none from h] at hb
    cases hb
  | some v =>
    rw [Option.mem_def.1 hb] at h
    exact hasType_payload hs hm h

theorem hasType_anyTerm (hs : s.mapper? field = some m) {analyzer : Analyzer}
    (ha : m.analyzer? = some analyzer) (terms : List String) :
    ∀ p ∈ (anyTerm field terms).payloads, s.HasType p := by
  have htype (text : String) : s.HasType (field, .str text) := by
    obtain ⟨own, hkind, -⟩ := Mapper.kind_of_analyzer? ha
    refine ⟨m, hs, ?_⟩
    rw [Mapper.tag_eq_text hkind]
    rfl
  unfold anyTerm
  split
  · simp [Query.payloads]
  · simpa [Query.payloads] using htype _
  · simp only [Query.payloads, Query.clausePayloads_eq_flatMap, List.mem_flatMap, List.mem_map]
    rintro p ⟨_, ⟨text, -, rfl⟩, hp⟩
    rw [Query.payloads, List.mem_singleton] at hp
    exact hp ▸ htype text

theorem hasType_matchQuery {v : Value} {q : Query} (h : matchQuery s field v = .ok q) :
    ∀ p ∈ q.payloads, s.HasType p := by
  simp only [matchQuery, bind_eq_ok, scalarMapper_eq_ok, payload_eq_ok] at h
  obtain ⟨m, ⟨hs, hm⟩, base, hbase, hq⟩ := h
  rw [analyzer?_of_mapper? hs] at hq
  cases ha : m.analyzer? with
  | none =>
    simp only [ha, pure_eq_ok] at hq
    subst hq
    simpa [Query.payloads] using hasType_payload hs hm hbase
  | some analyzer =>
    simp only [ha, pure_eq_ok] at hq
    subst hq
    exact hasType_anyTerm hs ha _

theorem hasType_matchClauses {values : List Value} {clauses : List (Occur × Query)}
    (h : matchClauses s field values = .ok clauses) :
    ∀ p ∈ Query.clausePayloads clauses, s.HasType p := by
  induction values generalizing clauses with
  | nil =>
    cases h
    simp [Query.clausePayloads]
  | cons v vs ih =>
    simp only [matchClauses, bind_eq_ok, pure_eq_ok] at h
    obtain ⟨q, hq, rest, hrest, rfl⟩ := h
    rw [Query.clausePayloads, List.forall_mem_append]
    exact ⟨hasType_matchQuery hq, ih hrest⟩

theorem hasType_leafQuery {l : Leaf} {q : Query} (h : l.query s = .ok q) :
    ∀ p ∈ q.payloads, s.HasType p := by
  cases l with
  | pattern form field text =>
    simp only [Leaf.query, bind_eq_ok, pure_eq_ok] at h
    obtain ⟨m, -, rfl⟩ := h
    cases form <;> simp [patternQuery, Query.payloads]
  | fuzzy field text maxEdits prefixLength maxExpansions transpositions =>
    simp only [Leaf.query, bind_eq_ok, pure_eq_ok] at h
    obtain ⟨m, -, rfl⟩ := h
    simp [Query.payloads]
  | literal form field v =>
    cases form with
    | term =>
      simp only [Leaf.query, bind_eq_ok, pure_eq_ok, scalarMapper_eq_ok, payload_eq_ok] at h
      obtain ⟨m, ⟨hs, hm⟩, base, hbase, rfl⟩ := h
      simpa [Query.payloads] using hasType_payload hs hm hbase
    | matching => exact hasType_matchQuery h
  | phrase field text slop =>
    simp only [Leaf.query, bind_eq_ok, pure_eq_ok] at h
    obtain ⟨m, -, rfl⟩ := h
    split <;> split <;> simp [Query.payloads]
  | contains field values =>
    simp only [Leaf.query, bind_eq_ok, pure_eq_ok] at h
    obtain ⟨clauses, hclauses, rfl⟩ := h
    rw [Query.payloads]
    exact hasType_matchClauses hclauses
  | range field lower upper includeLower includeUpper =>
    simp only [Leaf.query, bind_eq_ok, pure_eq_ok, scalarMapper_eq_ok, bound_eq_ok] at h
    obtain ⟨m, ⟨hs, hm⟩, low, hlow, high, hhigh, rfl⟩ := h
    simp only [Query.payloads, List.forall_mem_map, List.forall_mem_append, Option.mem_toList]
    exact ⟨hasType_bound hs hm hlow, hasType_bound hs hm hhigh⟩
  | geoBox field box =>
    simp only [Leaf.query, bind_eq_ok, pure_eq_ok] at h
    obtain ⟨m, -, rfl⟩ := h
    simp [Query.payloads]
  | geoDistance field latitude longitude minimum maximum =>
    simp only [Leaf.query, bind_eq_ok, pure_eq_ok] at h
    obtain ⟨m, -, rfl⟩ := h
    simp [Query.payloads]

mutual

/-- What a compiled condition looks for has the type of the mapper of its field. -/
theorem hasType_query : ∀ {c : Condition} {q : Query}, c.query s = .ok q →
    ∀ p ∈ q.payloads, s.HasType p
  | .all _, q, h => by
    cases h
    simp [Query.payloads]
  | .nothing _, q, h => by
    cases h
    simp [Query.payloads]
  | .boolean boost must should not, q, h => by
    simp only [query, bind_eq_ok, pure_eq_ok] at h
    obtain ⟨musts, hmusts, shoulds, hshoulds, nots, hnots, rfl⟩ := h
    have himplicit : Query.clausePayloads (implicitClauses must should) = [] := by
      unfold implicitClauses
      split <;> simp [Query.clausePayloads, Query.payloads]
    simp only [Query.payloads_boosted, Query.payloads, Query.clausePayloads_append, himplicit,
      List.nil_append, List.forall_mem_append]
    exact ⟨⟨hasType_clauses hmusts, hasType_clauses hshoulds⟩, hasType_clauses hnots⟩
  | .leaf boost l, q, h => by
    obtain ⟨ql, hl, rfl⟩ := map_eq_ok.1 h
    rw [Query.payloads_boosted]
    exact hasType_leafQuery hl

theorem hasType_clauses : ∀ {occur : Occur} {cs : List Condition} {qs : List (Occur × Query)},
    clauses s occur cs = .ok qs → ∀ p ∈ Query.clausePayloads qs, s.HasType p
  | occur, [], qs, h => by
    cases h
    simp [Query.clausePayloads]
  | occur, c :: cs, qs, h => by
    simp only [clauses, bind_eq_ok, pure_eq_ok] at h
    obtain ⟨q, hq, rest, hrest, rfl⟩ := h
    rw [Query.clausePayloads, List.forall_mem_append]
    exact ⟨hasType_query hq, hasType_clauses hrest⟩

end

theorem hasType_compile {c : Condition} {q : Query} (h : (c.compile s).result = .ok q) :
    ∀ p ∈ q.payloads, s.HasType p := by
  have hq : c.query s = .ok q := mapError_eq_ok.1 h
  exact hasType_query hq

end Condition

/-! ## Searches -/

namespace Search

variable {s : Schema}

/-- What a compiled search looks for has the type of the mapper of its field. -/
theorem hasType_compileQuery {search : Search} {q : Query}
    (h : (search.compileQuery s).result = .ok q) : ∀ p ∈ q.payloads, s.HasType p := by
  unfold compileQuery at h
  split at h
  · simp only [Recorded.result_bind, Recorded.result_pure, bind_eq_ok] at h
    obtain ⟨query, hquery, filter, hfilter, hq⟩ := h
    cases hq
    simp only [Query.payloads, Query.clausePayloads, List.append_nil, List.forall_mem_append]
    exact ⟨Condition.hasType_compile hquery, Condition.hasType_compile hfilter⟩
  · exact Condition.hasType_compile h
  · simp only [Recorded.result_bind, Recorded.result_pure, bind_eq_ok] at h
    obtain ⟨filter, hfilter, hq⟩ := h
    cases hq
    rw [Query.payloads]
    exact Condition.hasType_compile hfilter
  · cases h
    simp [Query.payloads]

theorem compileSort_eq_ok {requests : List SortRequest} {sorts : List SortField} :
    compileSort s requests = .ok sorts ↔
      List.Forall₂ (fun request sort => s.sortField request.field request.reverse = .ok sort)
        requests sorts := by
  induction requests generalizing sorts with
  | nil => simp [compileSort, eq_comm]
  | cons request requests ih =>
    simp only [compileSort, bind_eq_ok, pure_eq_ok, ih, List.forall₂_cons_left_iff]
    constructor
    · rintro ⟨sort, hsort, rest, hrest, rfl⟩
      exact ⟨sort, rest, hsort, hrest, rfl⟩
    · rintro ⟨sort, rest, hsort, hrest, rfl⟩
      exact ⟨sort, hsort, rest, hrest, rfl⟩

end Search

/-! ## Sorting -/

namespace Schema

variable {s : Schema} {field : String} {m : Mapper}

/-- The criterion of a field: it is sorted by, and compared as the engine does it for the kind of
its mapper. -/
theorem sortField_eq_ok {reverse : Bool} {sort : SortField} :
    s.sortField field reverse = .ok sort ↔
      ∃ m kind, s.mapper? field = some m ∧ m.sorted ∧ m.tag.sort? = some kind ∧
        ⟨field ++ ".sort", kind, reverse⟩ = sort := by
  simp only [sortField, bind_eq_ok, Condition.requireMapper_eq_ok, Mapper.sortField,
    Mapper.sortKind?, sortName]
  refine exists_congr fun m => ?_
  cases m.sorted <;> cases m.tag.sort? <;> simp

/-- Sorting by a field is refused if there is no such field, or if it is not sorted by. -/
theorem exists_sortField_error_iff
    (hsort : ∀ m, s.mapper? field = some m → m.sorted → m.tag.sort? ≠ none) {reverse : Bool} :
    (∃ fault, s.sortField field reverse = .error fault) ↔
      s.mapper? field = none ∨ ∃ m, s.mapper? field = some m ∧ m.sorted = false := by
  cases hs : s.mapper? field with
  | none => simp [sortField, requireMapper, hs, bind, Except.bind]
  | some m =>
    cases hm : m.sorted with
    | false =>
      simp [sortField, requireMapper, hs, bind, Except.bind, Mapper.sortField, Mapper.sortKind?, hm]
    | true =>
      obtain ⟨kind, hkind⟩ := Option.ne_none_iff_exists'.1 (hsort m hs hm)
      have hok : s.sortField field reverse = .ok ⟨field ++ ".sort", kind, reverse⟩ :=
        sortField_eq_ok.2 ⟨m, kind, hs, hm, hkind, rfl⟩
      simp [hok, hm]

/-- A field of a built schema is sorted by only if the engine can sort by its kind. -/
theorem sort?_of_build {d : Draft} (h : d.build.result = .ok s) (hs : s.mapper? field = some m)
    (hm : m.sorted) : m.tag.sort? ≠ none := by
  have hrealizes := realizes_of_compose (result_build_eq_ok.1 h)
  obtain ⟨entry, -, hentry⟩ :=
    exists_of_forall₂ hrealizes.mappers ((hrealizes.mapper? field m).1 hs).1
  obtain ⟨own, hown, rfl⟩ := hentry.built
  rw [Mapper.sorted_resolveAnalyzer] at hm
  rw [Mapper.tag_resolveAnalyzer]
  exact Mapper.Draft.sort?_of_build hown hm

end Schema

/-! ## Fields -/

/-- Whether the field is one to sort by. The others are searched in. -/
def Field.sorts (f : Field) : Bool := f.docValues?.isSome

namespace Mapper

/-- The name of the fields to sort by, or of those to search in. -/
def nameFor (m : Mapper) (sorting : Bool) : String := if sorting then sortName m.field else m.field


variable {m : Mapper} {row : Columns} {fields : List Field} {f : Field}

/-- The fields of a row have the type of the mapper, but for geohashes. -/
theorem type_of_fields (hsort : m.sorted → m.tag.sort? ≠ none)
    (h : (m.fields row).result = .ok fields) (hf : f ∈ fields) (hkind : f.kind ≠ .geoHash) :
    f.value.type = m.tag.payloadType := by
  have hrow := materializes_of_sort? hsort row
  cases hm : m.tag.isSpatial with
  | false =>
    obtain ⟨bases, hbases, rfl⟩ := (hrow.scalar hm fields).1 h
    obtain ⟨base, hbase, hf⟩ := List.mem_flatMap.1 hf
    obtain ⟨v, -, hv⟩ := exists_of_forall₂ hbases hbase
    have htype := type_of_coerce hm (result_base_eq_ok.1 hv)
    rcases mem_elementFields hf with rfl | rfl
    · exact htype
    · exact htype
  | true =>
    obtain ⟨latitude, longitude, levels, hpoint⟩ := exists_kind_of_isSpatial hm
    obtain ⟨-, -, rfl⟩ | ⟨x, y, -, rfl⟩ := (hrow.spatial _ _ _ hpoint fields).1 h
    · cases hf
    · rcases mem_spatialFields hf with rfl | rfl
      · rw [tag, hpoint]
        rfl
      · exact absurd rfl hkind

/-- No field to search in is one to sort by. -/
theorem docValues?_fieldKind (kind : MapperKind) {name : String} {base : FieldValue} {stored : Bool}
    {boost : Single} : (⟨name, base, kind.fieldKind, stored, boost⟩ : Field).docValues? = none := by
  cases kind <;> rfl

theorem name_of_elementFields {many : Bool} {base : FieldValue}
    (h : f ∈ m.elementFields many base) : f.name = m.nameFor f.sorts ∧ (f.sorts → m.sorted) := by
  rw [elementFields, List.mem_append] at h
  rcases h with h | h
  · split at h
    · rename_i hsorted
      rw [List.mem_singleton.1 h]
      exact ⟨rfl, fun _ => hsorted⟩
    · cases h
  · split at h
    · rw [List.mem_singleton.1 h, Field.sorts, docValues?_fieldKind]
      exact ⟨rfl, Bool.noConfusion⟩
    · cases h

/-- The name of a field follows from its role, and what is not sorted by has no fields to sort
by. -/
theorem name_of_fields (hsort : m.sorted → m.tag.sort? ≠ none)
    (h : (m.fields row).result = .ok fields) (hf : f ∈ fields) :
    f.name = m.nameFor f.sorts ∧ (f.sorts → m.sorted) := by
  have hrow := materializes_of_sort? hsort row
  cases hm : m.tag.isSpatial with
  | false =>
    obtain ⟨bases, -, rfl⟩ := (hrow.scalar hm fields).1 h
    obtain ⟨base, -, hf⟩ := List.mem_flatMap.1 hf
    exact name_of_elementFields hf
  | true =>
    obtain ⟨latitude, longitude, levels, hpoint⟩ := exists_kind_of_isSpatial hm
    obtain ⟨-, -, rfl⟩ | ⟨x, y, -, rfl⟩ := (hrow.spatial _ _ _ hpoint fields).1 h
    · cases hf
    · rcases mem_spatialFields hf with rfl | rfl
      · exact ⟨rfl, Bool.noConfusion⟩
      · exact ⟨rfl, Bool.noConfusion⟩

end Mapper

/-! ## Built schemas -/

namespace Schema

variable {s : Schema} {field : String} {m : Mapper}

theorem agrees_of_sort? (hs : s.mapper? field = some m)
    (hsort : m.sorted → m.tag.sort? ≠ none) : s.Agrees field m m.tag.payloadType where
  rows _ _ h _ hf hkind := Mapper.type_of_fields hsort h hf hkind
  conditions _ _ h _ hbase := type_of_hasType hs (Condition.hasType_compile h _ hbase)
  searches _ _ h _ hbase :=
    type_of_hasType hs (Search.hasType_compileQuery (Search.compile_eq_ok.1 h).1 _ hbase)
  sorts hm reverse := by
    obtain ⟨kind, hkind⟩ := Option.ne_none_iff_exists'.1 (hsort hm)
    refine ⟨kind, sortField_eq_ok.2 ⟨m, kind, hs, hm, hkind, rfl⟩,
      MapperTag.payloadType_of_sort? hkind, fun row fields h f hf hvalues => ?_⟩
    have hfield : m.field = field := (mem_of_mapper? hs).2
    have hsorts : f.sorts := Option.isSome_iff_ne_none.2 hvalues
    rw [(Mapper.name_of_fields hsort h hf).1, hsorts, ← hfield]
    rfl

/-- Each field of a built schema has one type, on all ways. -/
theorem isTyped_of_build {d : Draft} (h : d.build.result = .ok s) : s.IsTyped where
  agrees _ _ hs := agrees_of_sort? hs (sort?_of_build h hs)
  sortRefused _ _ := exists_sortField_error_iff fun _ hs => sort?_of_build h hs
  sortFails _ _ _ he := by
    obtain ⟨fault, -, rfl⟩ := mapError_eq_error.1 he
    rfl
  ordered _ _ h := Search.compileSort_eq_ok.1 (Search.compile_eq_ok.1 h).2

/-- A draft of titles in terms, of years that are sorted by, and of places. -/
def sampleDraft : Draft where
  fields :=
    [("title", { kind := .text none }), ("year", { sorted := some true, kind := .integer }),
      ("place", { kind := .geoPoint (some "north") (some "east") none })]

/-- The schema of the draft. -/
def sampleTyped : Schema :=
  .ofMappers .standard
    [⟨"title", "title", true, false, defaultBoost, .text (some .standard)⟩,
      ⟨"year", "year", true, true, defaultBoost, .integer⟩,
      ⟨"place", "place", true, false, defaultBoost, .geoPoint "north" "east" 11⟩]

/-- The sample has a type for each of its fields, and is sorted by years. -/
theorem isTyped_of_build_sample :
    sampleDraft.build.result = .ok sampleTyped ∧ sampleTyped.IsTyped ∧
      sampleTyped.sortField "year" true = .ok ⟨"year.sort", .int, true⟩ := by
  have h : sampleDraft.build.result = .ok sampleTyped := rfl
  exact ⟨h, isTyped_of_build h, rfl⟩

end Schema

end ColumnIndex
