import ColumnIndex.Condition.Compile
import ColumnIndex.Proofs.FieldPositions
import ColumnIndex.Proofs.Payload
import ColumnIndex.Proofs.QueryMeaning

/-!
# What a condition finds

The meaning of a condition is said without the query that it becomes: of the leaves by the query
that the engine has for each of them, and of trees by the three lists of a boolean condition.

## Main definitions

* `Condition.Leaf.EngineQuery` — the query that the engine has for a leaf.
* `Condition.LiteralHolds` — the meaning of a literal in the terms of its field.
* `Condition.Denotes` — the meaning of a condition.

Main statement: the compiled query matches the documents that the condition denotes.
-/
namespace ColumnIndex.Condition

open Outcome

/-! ## Leaves -/

/-- The payloads of the bound of a range: none for no bound. -/
def IsBound (m : Mapper) : Option Value → Option FieldValue → Prop
  | none, base => base = none
  | some v, base => m.coerce m.field v = .ok base

/-- The terms of a phrase: those of the analyzer of the field, or the text as one term. -/
def phraseTerms (m : Mapper) (text : String) : List String :=
  match m.analyzer? with
  | some analyzer => analyzer.analyze text
  | none => [foldedText m text]

/-- The one query that the engine has for a leaf that is no literal in the terms of its field.
There is none for a phrase without terms. -/
inductive Leaf.EngineQuery (s : Schema) : Leaf → Query → Prop
  | pattern {form field text m} : s.mapper? field = some m →
    EngineQuery s (.pattern form field text) (patternQuery form field (foldedText m text))
  | fuzzy {field text maxEdits prefixLength maxExpansions transpositions m} :
    s.mapper? field = some m →
    EngineQuery s (.fuzzy field text maxEdits prefixLength maxExpansions transpositions)
      (.fuzzy field (foldedText m text) maxEdits prefixLength maxExpansions transpositions)
  | term {field v m base} : s.mapper? field = some m → m.coerce m.field v = .ok (some base) →
    EngineQuery s (.literal .term field v) (.term field base)
  | phrase {field text slop m} : s.mapper? field = some m → phraseTerms m text ≠ [] →
    EngineQuery s (.phrase field text slop) (.phrase field (phraseTerms m text) slop)
  | range {field lower upper includeLower includeUpper m low high} : s.mapper? field = some m →
    IsBound m lower low → IsBound m upper high →
    EngineQuery s (.range field lower upper includeLower includeUpper)
      (.range field low high includeLower includeUpper)
  | geoBox {field box} : EngineQuery s (.geoBox field box) (.geoBox field box)
  | geoDistance {field latitude longitude minimum maximum} :
    EngineQuery s (.geoDistance field latitude longitude minimum maximum)
      (.geoDistance field latitude longitude (minimum.map Distance.meters) maximum.meters)

/-- The meaning of a literal in the terms of its field: of a field in terms some term of the
payload holds, of any other field the payload as one term. -/
def LiteralHolds (s : Schema) (truth : Query → Prop) (field : String) (v : Value) : Prop :=
  ∃ m base, s.mapper? field = some m ∧ m.coerce m.field v = .ok (some base) ∧
    match m.analyzer? with
    | none => truth (.term field base)
    | some analyzer =>
      ∃ text, base = .str text ∧ ∃ term ∈ analyzer.analyze text, truth (.term field (.str term))

/-- The meaning of a leaf. -/
def Leaf.Denotes (s : Schema) (truth : Query → Prop) : Leaf → Prop
  | literal .matching field v => LiteralHolds s truth field v
  | contains field values => ∃ v ∈ values, LiteralHolds s truth field v
  | l => ∃ q, l.EngineQuery s q ∧ truth q

/-! ## Trees -/

mutual

/-- The meaning of a condition for a document, given which leaf queries hold for it. -/
def Denotes (s : Schema) (truth : Query → Prop) : Condition → Prop
  | all _ => True
  | nothing _ => False
  | boolean _ must should not =>
    BooleanHolds (denotations s truth must) (denotations s truth should) (denotations s truth not)
  | leaf _ l => l.Denotes s truth

/-- The meanings of several conditions. -/
def denotations (s : Schema) (truth : Query → Prop) : List Condition → List Prop
  | [] => []
  | c :: cs => Denotes s truth c :: denotations s truth cs

end

variable {s : Schema} {truth : Query → Prop}

theorem denotations_eq_map (cs : List Condition) :
    denotations s truth cs = cs.map (Denotes s truth) := by
  induction cs with
  | nil => simp [denotations]
  | cons c cs ih => simp [denotations, ih]

@[simp] theorem isEmpty_denotations (cs : List Condition) :
    (denotations s truth cs).isEmpty = cs.isEmpty := by
  simp [denotations_eq_map]

/-- A boolean condition in words of its own lists. -/
theorem denotes_boolean (boost : Single) (must should not : List Condition) :
    (boolean boost must should not).Denotes s truth ↔
      (∀ c ∈ must, c.Denotes s truth) ∧ (∀ c ∈ not, ¬c.Denotes s truth) ∧
        (must ≠ [] ∨ should = [] ∨ ∃ c ∈ should, c.Denotes s truth) := by
  have hsome : (∃ p ∈ should.map (Denotes s truth), p) ↔ ∃ c ∈ should, c.Denotes s truth := by
    constructor
    · rintro ⟨p, hp, hholds⟩
      obtain ⟨c, hc, rfl⟩ := List.mem_map.1 hp
      exact ⟨c, hc, hholds⟩
    · rintro ⟨c, hc, hholds⟩
      exact ⟨_, List.mem_map_of_mem hc, hholds⟩
  simp only [Denotes, BooleanHolds, denotations_eq_map, List.forall_mem_map, hsome, ne_eq,
    List.map_eq_nil_iff]

theorem clauseTruths_implicitClauses (must should : List Condition) :
    Query.clauseTruths truth (implicitClauses must should) =
      if must.isEmpty && should.isEmpty then [(.must, True)] else [] := by
  unfold implicitClauses
  split <;> simp [Query.clauseTruths, Query.Matches]

/-! ## Compiled leaves -/

theorem requireMapper_eq_ok {field : String} {m : Mapper} :
    s.requireMapper field = .ok m ↔ s.mapper? field = some m := by
  unfold Schema.requireMapper
  cases s.mapper? field <;> simp

theorem stringMapper_eq_ok {field : String} {tag : ConditionTag} {m : Mapper} :
    stringMapper s field tag = .ok m ↔ s.mapper? field = some m ∧ m.tag.isString := by
  simp only [stringMapper, bind_eq_ok, requireMapper_eq_ok]
  constructor
  · rintro ⟨m', hm, h⟩
    split at h <;> simp_all [pure, Except.pure, unsupported]
  · rintro ⟨hm, hs⟩
    exact ⟨m, hm, by simp [hs, pure, Except.pure]⟩

theorem spatialMapper_eq_ok {field : String} {tag : ConditionTag} {m : Mapper} :
    spatialMapper s field tag = .ok m ↔ s.mapper? field = some m ∧ m.tag.isSpatial := by
  simp only [spatialMapper, bind_eq_ok, requireMapper_eq_ok]
  constructor
  · rintro ⟨m', hm, h⟩
    split at h <;> simp_all [pure, Except.pure, unsupported]
  · rintro ⟨hm, hs⟩
    exact ⟨m, hm, by simp [hs, pure, Except.pure]⟩

theorem scalarMapper_eq_ok {field : String} {tag : ConditionTag} {m : Mapper} :
    scalarMapper s field tag = .ok m ↔ s.mapper? field = some m ∧ m.tag.isSpatial = false := by
  simp only [scalarMapper, bind_eq_ok, requireMapper_eq_ok]
  constructor
  · rintro ⟨m', hm, h⟩
    split at h <;> simp_all [pure, Except.pure, unsupported]
  · rintro ⟨hm, hs⟩
    exact ⟨m, hm, by simp [hs, pure, Except.pure]⟩

theorem payload?_eq_ok {m : Mapper} {v : Value} {base : Option FieldValue} :
    payload? m v = .ok base ↔ m.coerce m.field v = .ok base :=
  mapError_eq_ok

theorem payload_eq_ok {m : Mapper} {v : Value} {base : FieldValue} :
    payload m v = .ok base ↔ m.coerce m.field v = .ok (some base) := by
  simp only [payload, bind_eq_ok, payload?_eq_ok]
  constructor
  · rintro ⟨_ | b, hb, h⟩
    · contradiction
    · cases h
      exact hb
  · intro h
    exact ⟨some base, h, rfl⟩

theorem bound_eq_ok {m : Mapper} {v : Option Value} {base : Option FieldValue} :
    bound m v = .ok base ↔ IsBound m v base := by
  cases v with
  | none => simp [bound, IsBound, eq_comm]
  | some v => exact payload?_eq_ok

theorem analyzer?_of_mapper? {field : String} {m : Mapper} (h : s.mapper? field = some m) :
    s.analyzer? field = m.analyzer? := by
  simp [Schema.analyzer?, h]

/-- A query for several terms matches where one of the terms does. -/
theorem matches_anyTerm (field : String) (terms : List String) :
    (anyTerm field terms).Matches truth ↔ ∃ term ∈ terms, truth (.term field (.str term)) := by
  unfold anyTerm
  split
  · simp [Query.Matches]
  · simp [Query.Matches]
  · rw [Query.Matches, Query.clauseTruths_eq_map, List.map_map, ← clausesMatch_should]
    simp [Function.comp_def, Query.Matches]

theorem matches_matchQuery {field : String} {v : Value} {q : Query}
    (h : matchQuery s field v = .ok q) : q.Matches truth ↔ LiteralHolds s truth field v := by
  simp only [matchQuery, bind_eq_ok, scalarMapper_eq_ok, payload_eq_ok] at h
  obtain ⟨m, ⟨hm, -⟩, base, hbase, hq⟩ := h
  rw [analyzer?_of_mapper? hm] at hq
  cases ha : m.analyzer? with
  | none =>
    simp only [ha, pure_eq_ok] at hq
    subst hq
    simp [LiteralHolds, hm, hbase, ha, Query.Matches]
  | some analyzer =>
    obtain ⟨text, rfl⟩ := Mapper.coerce_of_analyzer? ha hbase
    simp only [ha, pure_eq_ok] at hq
    subst hq
    simp [LiteralHolds, hm, hbase, ha, matches_anyTerm, FieldValue.asText?]

theorem clauseTruths_matchClauses {field : String} {values : List Value}
    {clauses : List (Occur × Query)} (h : matchClauses s field values = .ok clauses) :
    Query.clauseTruths truth clauses
      = values.map fun v => (.should, LiteralHolds s truth field v) := by
  induction values generalizing clauses with
  | nil =>
    cases h
    rfl
  | cons v vs ih =>
    simp only [matchClauses, bind_eq_ok, pure_eq_ok] at h
    obtain ⟨q, hq, rest, hrest, rfl⟩ := h
    rw [Query.clauseTruths, ih hrest, List.map_cons, propext (matches_matchQuery hq)]

theorem IsBound.unique {m : Mapper} {v : Option Value} {base other : Option FieldValue}
    (h : IsBound m v base) (h' : IsBound m v other) : base = other := by
  cases v with
  | none => exact Eq.trans h (Eq.symm h')
  | some v => exact Except.ok.inj (Eq.trans (Eq.symm h) h')

/-- The engine has at most one query for a leaf. -/
theorem Leaf.EngineQuery.unique {l : Leaf} {q q' : Query} (h : l.EngineQuery s q)
    (h' : l.EngineQuery s q') : q = q' := by
  cases h <;> cases h'
  case pattern.pattern hm _ hm' => grind
  case fuzzy.fuzzy hm _ hm' => grind
  case term.term hm hb _ _ hm' hb' => grind
  case phrase.phrase hm _ _ hm' _ => grind
  case range.range m low high hm hl hh m' low' high' hm' hl' hh' =>
    obtain rfl : m = m' := Option.some.inj (hm.symm.trans hm')
    rw [hl.unique hl', hh.unique hh']
  case geoBox.geoBox => rfl
  case geoDistance.geoDistance => rfl

/-- The query that the engine has for a leaf is none that follows from others. -/
theorem Leaf.EngineQuery.matches_iff {l : Leaf} {q : Query} (h : l.EngineQuery s q) :
    q.Matches truth ↔ truth q := by
  cases h
  case pattern form _ _ _ _ => cases form <;> simp [patternQuery, Query.Matches]
  all_goals simp [Query.Matches]

theorem Leaf.EngineQuery.matches_iff_exists {l : Leaf} {q : Query} (h : l.EngineQuery s q) :
    q.Matches truth ↔ ∃ q', l.EngineQuery s q' ∧ truth q' := by
  rw [h.matches_iff]
  constructor
  · intro hq
    exact ⟨q, h, hq⟩
  · rintro ⟨q', h', hq'⟩
    rwa [h.unique h']

/-- The query of a leaf matches the documents that the leaf denotes. -/
theorem matches_leafQuery {l : Leaf} {q : Query} (h : l.query s = .ok q) :
    q.Matches truth ↔ l.Denotes s truth := by
  cases l with
  | pattern form field text =>
    simp only [Leaf.query, bind_eq_ok, pure_eq_ok, stringMapper_eq_ok] at h
    obtain ⟨m, ⟨hm, -⟩, rfl⟩ := h
    exact (Leaf.EngineQuery.pattern hm).matches_iff_exists
  | fuzzy field text maxEdits prefixLength maxExpansions transpositions =>
    simp only [Leaf.query, bind_eq_ok, pure_eq_ok, stringMapper_eq_ok] at h
    obtain ⟨m, ⟨hm, -⟩, rfl⟩ := h
    exact (Leaf.EngineQuery.fuzzy hm).matches_iff_exists
  | literal form field v =>
    cases form with
    | term =>
      simp only [Leaf.query, bind_eq_ok, pure_eq_ok, scalarMapper_eq_ok, payload_eq_ok] at h
      obtain ⟨m, ⟨hm, -⟩, base, hbase, rfl⟩ := h
      exact (Leaf.EngineQuery.term hm hbase).matches_iff_exists
    | matching => exact matches_matchQuery h
  | phrase field text slop =>
    simp only [Leaf.query, bind_eq_ok, pure_eq_ok, stringMapper_eq_ok] at h
    obtain ⟨m, ⟨hm, -⟩, rfl⟩ := h
    rw [analyzer?_of_mapper? hm]
    change Query.Matches truth (if (phraseTerms m text).isEmpty then .matchNone
      else .phrase field (phraseTerms m text) slop) ↔ _
    by_cases hnil : phraseTerms m text = []
    · -- without terms there is nothing for the engine to look for
      simp only [hnil, List.isEmpty_nil, if_true, Query.Matches, Leaf.Denotes, false_iff]
      rintro ⟨q', hq', -⟩
      cases hq' with
      | phrase hm' hne =>
        obtain rfl := Option.some.inj (hm.symm.trans hm')
        exact hne hnil
    · simp only [List.isEmpty_iff, hnil, if_false]
      exact (Leaf.EngineQuery.phrase hm hnil).matches_iff_exists
  | contains field values =>
    simp only [Leaf.query, bind_eq_ok, pure_eq_ok] at h
    obtain ⟨clauses, hclauses, rfl⟩ := h
    rw [Query.Matches, clauseTruths_matchClauses hclauses, clausesMatch_should]
    rfl
  | range field lower upper includeLower includeUpper =>
    simp only [Leaf.query, bind_eq_ok, pure_eq_ok, scalarMapper_eq_ok, bound_eq_ok] at h
    obtain ⟨m, ⟨hm, -⟩, low, hlow, high, hhigh, rfl⟩ := h
    exact (Leaf.EngineQuery.range hm hlow hhigh).matches_iff_exists
  | geoBox field box =>
    simp only [Leaf.query, bind_eq_ok, pure_eq_ok] at h
    obtain ⟨m, -, rfl⟩ := h
    exact Leaf.EngineQuery.geoBox.matches_iff_exists
  | geoDistance field latitude longitude minimum maximum =>
    simp only [Leaf.query, bind_eq_ok, pure_eq_ok] at h
    obtain ⟨m, -, rfl⟩ := h
    exact Leaf.EngineQuery.geoDistance.matches_iff_exists

/-! ## Compiled trees -/

mutual

theorem matches_query : ∀ {c : Condition} {q : Query}, c.query s = .ok q →
    (q.Matches truth ↔ c.Denotes s truth)
  | .all _, q, h => by
    cases h
    simp [Query.Matches, Denotes]
  | .nothing _, q, h => by
    cases h
    simp [Query.Matches, Denotes]
  | .boolean boost must should not, q, h => by
    simp only [query, bind_eq_ok, pure_eq_ok] at h
    obtain ⟨musts, hmusts, shoulds, hshoulds, nots, hnots, rfl⟩ := h
    rw [Query.matches_boosted, Query.Matches, Denotes, ← clausesMatch_lists]
    simp only [Query.clauseTruths_append, clauseTruths_clauses hmusts,
      clauseTruths_clauses hshoulds, clauseTruths_clauses hnots, clauseTruths_implicitClauses,
      isEmpty_denotations]
  | .leaf boost l, q, h => by
    obtain ⟨ql, hl, rfl⟩ := map_eq_ok.1 h
    rw [Query.matches_boosted, Denotes, matches_leafQuery hl]

theorem clauseTruths_clauses : ∀ {occur : Occur} {cs : List Condition}
    {qs : List (Occur × Query)}, clauses s occur cs = .ok qs →
    Query.clauseTruths truth qs = (denotations s truth cs).map fun p => (occur, p)
  | occur, [], qs, h => by
    cases h
    rfl
  | occur, c :: cs, qs, h => by
    simp only [clauses, bind_eq_ok, pure_eq_ok] at h
    obtain ⟨q, hq, rest, hrest, rfl⟩ := h
    rw [Query.clauseTruths, denotations, List.map_cons, clauseTruths_clauses hrest,
      propext (matches_query hq)]

end

/-- The compiled query matches exactly the documents that the condition denotes, whatever the
engine says of its leaf queries. -/
theorem compile_matches_iff_denotes {c : Condition} {s : Schema} {q : Query}
    (h : (c.compile s).result = .ok q) {Doc : Type} (truth : Doc → Query → Prop) (d : Doc) :
    q.Matches (truth d) ↔ c.Denotes s (truth d) := by
  have hq : c.query s = .ok q := mapError_eq_ok.1 h
  exact matches_query hq

/-- Titles in terms, and years as numbers. -/
def sampleSchema : Schema :=
  .ofMappers .standard
    [⟨"title", "title", true, false, defaultBoost, .text (some .whitespace)⟩,
      ⟨"year", "published", true, true, defaultBoost, .integer⟩]

/-- Nothing is asked for but that a boolean condition does not hold, which has a literal without
terms among its own negations. -/
def sampleNegation : Condition :=
  .boolean defaultBoost [] []
    [.boolean defaultBoost []
      [.leaf defaultBoost (.literal .matching "title" (.text "Red Fox")),
        .leaf defaultBoost (.contains "year" [.long 1984, .long 2001])]
      [.leaf defaultBoost (.literal .matching "title" (.text " "))]]

/-- What becomes of the sample: each boolean condition a query of its own. -/
def sampleQuery : Query :=
  .boolean
    [(.must, .matchAll),
      (.mustNot,
        .boolean
          [(.should,
              .boolean
                [(.should, .term "title" (.str "Red")), (.should, .term "title" (.str "Fox"))]),
            (.should,
              .boolean [(.should, .term "year" (.int 1984)), (.should, .term "year" (.int 2001))]),
            (.mustNot, .matchNone)])]

/-- The sample, for a document of which one term holds. -/
theorem compile_matches_iff_denotes_negation :
    (sampleNegation.compile sampleSchema).result = .ok sampleQuery ∧
      (sampleQuery.Matches (· ∈ [Query.term "year" (.int 2001)]) ↔
        sampleNegation.Denotes sampleSchema (· ∈ [Query.term "year" (.int 2001)])) := by
  have h : (sampleNegation.compile sampleSchema).result = .ok sampleQuery := rfl
  exact ⟨h, compile_matches_iff_denotes h (fun (d : List Query) q => q ∈ d) _⟩

end ColumnIndex.Condition
