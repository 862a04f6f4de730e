import ColumnIndex.Proofs.ConditionMeaning

/-!
# Rows are found by their own values

A row is written as fields, and a literal is looked for as terms. Both sides take the payload of
the literal and the analyzer of the field from the same mapper, so a row is found by whatever
stands in its cell.

## Main definitions

* `Field.HasTerm`, `Document.HasTerm` — the terms under which a document is found.
* `Document.Finds` — which leaf queries hold for a document.
* `Value.Contains` — what stands in a cell.
* `Mapper.HasNoToken` — whether the analyzer of the field leaves nothing of a payload.

Main statement: the condition that a field matches a literal finds the rows with the literal.
-/
namespace ColumnIndex

open Outcome

/-! ## Terms of documents -/

/-- The terms under which a field is found: its payload, or the terms that the analyzer named by
the field cuts it into. -/
def Field.HasTerm (f : Field) (x : FieldValue) : Prop :=
  match f.kind with
  | .intPoint | .longPoint | .floatPoint | .doublePoint | .latLonPoint | .keyword => f.value = x
  | .text name => ∃ analyzer text, Analyzer.ofName? name = some analyzer ∧ f.value = .str text ∧
      ∃ term ∈ analyzer.analyze text, x = .str term
  | .geoHash | .docValues _ => False

/-- Whether a document is found under a term of fields with a name. -/
def Document.HasTerm (d : Document) (name : String) (x : FieldValue) : Prop :=
  ∃ f ∈ d.fields, f.name = name ∧ f.HasTerm x

/-- Which leaf queries hold for a document. Nothing is said of those that are not for one term. -/
def Document.Finds (d : Document) (other : Query → Prop) : Query → Prop
  | .term name x => d.HasTerm name x
  | q => other q

/-- What stands in a cell: the value itself, or an item of a list. -/
def Value.Contains (cell v : Value) : Prop :=
  match cell with
  | .list items => v ∈ items
  | _ => v = cell

namespace Mapper

variable {m : Mapper} {column name : String} {v : Value} {base : FieldValue}

/-- The analyzer of the field leaves nothing of the payload. -/
def HasNoToken (m : Mapper) (base : FieldValue) : Prop :=
  ∃ analyzer text, m.analyzer? = some analyzer ∧ base = .str text ∧ analyzer.analyze text = []

/-! ## Fields of a row -/

/-- The payloads of a list have those of its items among them. -/
theorem exists_coerce_of_coerceItems {items : List Value} {bases : List FieldValue}
    (h : m.coerceItems column items = .ok bases) (hv : v ∈ items) :
    ∃ base, m.coerce column v = .ok base ∧ ∀ b ∈ base, b ∈ bases := by
  induction items generalizing bases with
  | nil => cases hv
  | cons item items ih =>
    simp only [coerceItems, bind_eq_ok, pure_eq_ok] at h
    obtain ⟨base, hbase, rest, hrest, rfl⟩ := h
    rcases List.mem_cons.1 hv with rfl | hv
    · refine ⟨base, hbase, fun b hb => ?_⟩
      rw [Option.mem_def] at hb
      simp [hb]
    · obtain ⟨base', hbase', hmem⟩ := ih hrest hv
      exact ⟨base', hbase', fun b hb => List.mem_append_right _ (hmem b hb)⟩

/-- The payloads of a cell have those of what stands in it among them. -/
theorem exists_coerce_of_coerceAll {cell : Value} {bases : List FieldValue}
    (h : m.coerceAll column cell = .ok bases) (hv : cell.Contains v) :
    ∃ base, m.coerce column v = .ok base ∧ ∀ b ∈ base, b ∈ bases := by
  unfold coerceAll at h
  split at h
  · exact exists_coerce_of_coerceItems h hv
  · rename_i hlist
    have hcell : v = cell := by
      unfold Value.Contains at hv
      split at hv
      · exact absurd rfl (hlist _)
      · exact hv
    obtain ⟨base, hbase, rfl⟩ := map_eq_ok.1 h
    exact ⟨base, hcell ▸ hbase, fun b hb => by simpa using hb⟩

/-- The field to search in is made of the payload. -/
theorem indexedField_eq_ok (hi : m.indexed) {field : Option Field}
    (h : m.indexedField name base = .ok field) :
    ∃ kind, m.fieldKind? base = some kind ∧ field = some (.indexed name base kind m.boost) := by
  unfold indexedField at h
  rw [if_pos hi] at h
  split at h
  · rename_i kind hkind
    cases h
    exact ⟨kind, hkind, rfl⟩
  · cases h

/-- Each payload of a cell has a field to search in. -/
theorem exists_field_of_payloadFields (hi : m.indexed) {many : Bool} {bases : List FieldValue}
    {fields : List Field} (h : m.payloadFields many bases = .ok fields) (hb : base ∈ bases) :
    ∃ kind, m.fieldKind? base = some kind ∧ .indexed m.field base kind m.boost ∈ fields := by
  induction bases generalizing fields with
  | nil => cases hb
  | cons b bases ih =>
    simp only [payloadFields, bind_eq_ok, pure_eq_ok] at h
    obtain ⟨sorted, -, indexed, hindexed, rest, hrest, rfl⟩ := h
    rcases List.mem_cons.1 hb with rfl | hb
    · obtain ⟨kind, hkind, rfl⟩ := indexedField_eq_ok hi hindexed
      exact ⟨kind, hkind, by simp⟩
    · obtain ⟨kind, hkind, hmem⟩ := ih hrest hb
      exact ⟨kind, hkind, List.mem_append_right _ hmem⟩

/-- The fields of a row without points are those of the payloads of the cell. -/
theorem materialize_of_isSpatial (hm : m.tag.isSpatial = false) (row : Columns) :
    m.materialize row = (do
      let bases ← m.coerceAll m.column (row.cell m.column)
      m.payloadFields (row.cell m.column).isList bases) := by
  obtain ⟨field, own, indexed, sorted, boost, kind⟩ := m
  cases kind with
  | geoPoint latitude longitude levels => nomatch hm
  | _ => rfl

/-- The field to search in is found under its payload, if its mapper has no analyzer. -/
theorem hasTerm_indexed (hm : m.tag.isSpatial = false) (ha : m.analyzer? = none)
    {kind : FieldKind} (h : m.fieldKind? base = some kind) :
    (Field.indexed name base kind m.boost).HasTerm base := by
  obtain ⟨field, own, indexed, sorted, boost, k⟩ := m
  have hkind : kind ∈ [.intPoint, .longPoint, .floatPoint, .doublePoint, .keyword] := by
    cases k <;> cases base <;>
      simp_all [fieldKind?, analyzer?, MapperKind.tag, MapperTag.family, tag,
        MapperTag.isSpatial]
  simp only [List.mem_cons, List.not_mem_nil, or_false] at hkind
  rcases hkind with rfl | rfl | rfl | rfl | rfl <;> rfl

/-- The field to search in is found under the terms of its analyzer. -/
theorem hasTerm_indexed_text {analyzer : Analyzer} (ha : m.analyzer? = some analyzer)
    {text term : String} (hterm : term ∈ analyzer.analyze text) {kind : FieldKind}
    (h : m.fieldKind? (.str text) = some kind) :
    (Field.indexed name (.str text) kind m.boost).HasTerm (.str term) := by
  obtain ⟨own, hkind, hown⟩ := kind_of_analyzer? ha
  have hname : kind = .text analyzer.name := by
    rw [← hown]
    simpa [fieldKind?, hkind, eq_comm] using h
  subst hname
  exact ⟨analyzer, text, Analyzer.ofName?_name analyzer, rfl, term, hterm, rfl⟩

/-- A row has a payload for what stands in its cell, and a field to search in for that. -/
theorem exists_field_of_fields (hm : m.tag.isSpatial = false) (hi : m.indexed) {row : Columns}
    {fields : List Field} (hfields : (m.fields row).result = .ok fields) (hv : v.isScalar)
    (hcell : (row.cell m.column).Contains v) :
    ∃ base kind, m.coerce m.field v = .ok (some base) ∧ m.fieldKind? base = some kind ∧
      .indexed m.field base kind m.boost ∈ fields := by
  have hrow : m.materialize row = .ok fields := mapError_eq_ok.1 hfields
  rw [materialize_of_isSpatial hm, bind_eq_ok] at hrow
  obtain ⟨bases, hbases, hpayloads⟩ := hrow
  obtain ⟨_ | base, hbase, hmem⟩ := exists_coerce_of_coerceAll hbases hcell
  · rw [coerce_eq_none] at hbase
    simp [hbase, Value.isScalar, Value.isNull] at hv
  · obtain ⟨kind, hkind, hfield⟩ :=
      exists_field_of_payloadFields hi hpayloads (hmem base rfl)
    -- a payload does not hang on the column that it was read from
    exact ⟨base, kind, (coerce_eq_some hm).2 ((coerce_eq_some hm).1 hbase), hkind, hfield⟩

end Mapper

/-! ## Conditions on a row -/

namespace Condition

variable {s : Schema} {m : Mapper} {field : String}

/-- The query of a payload in the terms of its field. -/
def baseQuery (m : Mapper) (base : FieldValue) : Query :=
  match m.analyzer? with
  | none => .term m.field base
  | some analyzer => anyTerm m.field (analyzer.analyze (base.asText?.getD ""))

/-- The query of a literal with a payload. -/
theorem matchQuery_eq (hs : s.mapper? m.field = some m) (hm : m.tag.isSpatial = false) {v : Value}
    {base : FieldValue} (hv : m.coerce m.field v = .ok (some base)) :
    matchQuery s m.field v = .ok (baseQuery m base) := by
  rw [matchQuery, scalarMapper_eq_ok.2 ⟨hs, hm⟩, analyzer?_of_mapper? hs]
  change (payload m v >>= _) = _
  rw [payload_eq_ok.2 hv, baseQuery]
  cases m.analyzer? <;> rfl

theorem baseQuery_of_hasNoToken {base : FieldValue} (h : m.HasNoToken base) :
    baseQuery m base = .matchNone := by
  obtain ⟨analyzer, text, ha, rfl, hterms⟩ := h
  simp [baseQuery, ha, FieldValue.asText?, hterms, anyTerm]

/-- The query of a payload finds a document with the field to search in. -/
theorem matches_baseQuery (hm : m.tag.isSpatial = false) {v : Value} {base : FieldValue}
    (hbase : m.coerce m.field v = .ok (some base)) (htoken : ¬m.HasNoToken base)
    {kind : FieldKind} (hkind : m.fieldKind? base = some kind) {d : Document}
    (hmem : .indexed m.field base kind m.boost ∈ d.fields) (other : Query → Prop) :
    (baseQuery m base).Matches (d.Finds other) := by
  unfold baseQuery
  cases ha : m.analyzer? with
  | none =>
    rw [Query.Matches]
    · exact ⟨_, hmem, rfl, Mapper.hasTerm_indexed hm ha hkind⟩
    all_goals simp
  | some analyzer =>
    obtain ⟨text, rfl⟩ := Mapper.coerce_of_analyzer? ha hbase
    have hterms : analyzer.analyze text ≠ [] := fun h => htoken ⟨analyzer, text, ha, rfl, h⟩
    obtain ⟨term, hterm⟩ := List.exists_mem_of_ne_nil _ hterms
    rw [matches_anyTerm]
    exact ⟨term, hterm, _, hmem, rfl, Mapper.hasTerm_indexed_text ha hterm hkind⟩

/-- A field that is searched in is found by whatever stands in the cell of its row, unless the
analyzer leaves nothing of that. -/
theorem matching_finds_row (hs : s.mapper? field = some m) (hm : m.tag.isSpatial = false)
    (hi : m.indexed) {row : Columns} {fields : List Field}
    (hfields : (m.fields row).result = .ok fields) {v : Value} (hv : v.isScalar)
    (hcell : (row.cell m.column).Contains v) :
    ∃ base q, m.coerce m.field v = .ok (some base) ∧
      ((leaf defaultBoost (.literal .matching field v)).compile s).result = .ok q ∧
      (m.HasNoToken base → q = .matchNone) ∧
      (¬m.HasNoToken base →
        ∀ d : Document, fields ⊆ d.fields → ∀ other, q.Matches (d.Finds other)) := by
  obtain ⟨base, kind, hbase, hkind, hmem⟩ := Mapper.exists_field_of_fields hm hi hfields hv hcell
  obtain rfl : m.field = field := (Schema.mem_of_mapper? hs).2
  refine ⟨base, baseQuery m base, hbase, ?_, baseQuery_of_hasNoToken, fun htoken d hd other => ?_⟩
  · simp only [compile, query, Leaf.query, matchQuery_eq hs hm hbase]
    rfl
  · exact matches_baseQuery hm hbase htoken hkind (hd hmem) other

/-- A title in terms, as in the sample of a schema. -/
def sampleTitle : Mapper :=
  ⟨"title", "title", true, false, defaultBoost, .text (some .whitespace)⟩

/-- A row with two titles, one of them empty. -/
def sampleRow : Columns := .ofList [("title", .list [.null, .text "Red Fox"])]

/-- The fields of the row for its titles. -/
def sampleFields : List Field :=
  [.indexed "title" (.str "Red Fox") (.text "whitespace") defaultBoost]

/-- The row is found by its second title. -/
theorem matching_finds_row_title :
    ∃ base q, sampleTitle.coerce "title" (.text "Red Fox") = .ok (some base) ∧
      ((leaf defaultBoost (.literal .matching "title" (.text "Red Fox"))).compile
        sampleSchema).result = .ok q ∧
      (sampleTitle.HasNoToken base → q = .matchNone) ∧
      (¬sampleTitle.HasNoToken base →
        ∀ d : Document, sampleFields ⊆ d.fields → ∀ other, q.Matches (d.Finds other)) := by
  have hs : sampleSchema.mapper? "title" = some sampleTitle := rfl
  have hfields : (sampleTitle.fields sampleRow).result = .ok sampleFields := rfl
  have hcell : (sampleRow.cell sampleTitle.column).Contains (.text "Red Fox") :=
    List.mem_cons_of_mem _ (List.mem_cons_self ..)
  exact matching_finds_row hs rfl rfl hfields rfl hcell

end Condition

end ColumnIndex
