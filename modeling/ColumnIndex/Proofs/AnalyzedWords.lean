import ColumnIndex.Proofs.FieldTypes
import ColumnIndex.Proofs.Texts.Words

/-!
# Texts are analyzed word by word

All analyzers but the one that takes a text as a whole look for runs of characters that are not
blank, and make at most one term of each run, whatever stands around it. So the terms of a text are
those of its words, and so are the terms that are looked for where a condition is about a text.

## Main definitions

* `Analyzer.ByRuns` — how an analyzer makes terms of runs.
* `Analyzer.ByWords` — what is known of an analyzer that takes texts word by word.

Main statement: `Analyzer.byWords_of_ne_keyword`.
-/
namespace ColumnIndex

open Outcome

/-! ## Terms of runs -/

namespace Analyzer

variable {a : Analyzer} {keep : Char → Bool} {term? : List Char → Option String}

/-- The terms are made of the runs of characters with a property, which no blank has. A run makes at
most one term, and no empty one. -/
structure ByRuns (a : Analyzer) (keep : Char → Bool) (term? : List Char → Option String) :
    Prop where
  analyze : ∀ text, a.analyze text = (Text.runs keep text.toList).filterMap term?
  cut : ∀ c, Text.isBlank c → keep c = false
  ne_empty : ∀ run, run ≠ [] → "" ∉ term? run

/-- The term of a run in lower case. -/
def lowercaseTerm (run : List Char) : String := String.ofList (Text.lowercaseChars run)

theorem lowercaseTerm_ne_empty {run : List Char} (h : run ≠ []) : lowercaseTerm run ≠ "" := by
  simpa [lowercaseTerm] using Text.lowercaseChars_ne_nil h

theorem lowercaseRuns_eq (keep : Char → Bool) (cs : List Char) :
    lowercaseRuns keep cs = (Text.runs keep cs).map lowercaseTerm := rfl

theorem byRuns_standard : ByRuns .standard Text.isAlphanumeric (some ∘ lowercaseTerm) where
  analyze text := by rw [List.filterMap_eq_map, analyze, lowercaseRuns_eq]
  cut _ := Text.not_isAlphanumeric_of_isBlank
  ne_empty run hrun h := lowercaseTerm_ne_empty hrun (Option.some.inj h)

theorem byRuns_simple : ByRuns .simple Text.isAlphabetic (some ∘ lowercaseTerm) where
  analyze text := by rw [List.filterMap_eq_map, analyze, lowercaseRuns_eq]
  cut _ := Text.not_isAlphabetic_of_isBlank
  ne_empty run hrun h := lowercaseTerm_ne_empty hrun (Option.some.inj h)

theorem byRuns_whitespace : ByRuns .whitespace (!Text.isBlank ·) (some ∘ String.ofList) where
  analyze text := by rw [List.filterMap_eq_map, analyze]
  cut c hc := by rw [hc, Bool.not_true]
  ne_empty run hrun h := by
    have hchars := congrArg String.toList (Option.some.inj h)
    exact hrun (by simpa using hchars)

/-- The words that are left out are runs that make no term. -/
theorem byRuns_english : ByRuns .english Text.isAlphanumeric
    (Option.guard (!stopWords.contains ·) ∘ lowercaseTerm) where
  analyze text := by
    rw [analyze, lowercaseRuns_eq, ← List.filterMap_eq_filter, List.filterMap_map]
  cut _ := Text.not_isAlphanumeric_of_isBlank
  ne_empty run hrun h := by
    rw [Option.mem_def, Function.comp_apply, Option.guard_eq_some_iff] at h
    exact lowercaseTerm_ne_empty hrun h.1

theorem exists_byRuns (ha : a ≠ .keyword) : ∃ keep term?, ByRuns a keep term? := by
  cases a with
  | standard => exact ⟨_, _, byRuns_standard⟩
  | simple => exact ⟨_, _, byRuns_simple⟩
  | whitespace => exact ⟨_, _, byRuns_whitespace⟩
  | keyword => exact absurd rfl ha
  | english => exact ⟨_, _, byRuns_english⟩

namespace ByRuns

/-- Blanks between two texts separate their terms. -/
theorem analyze_append (h : ByRuns a keep term?) {blanks : String} (hne : blanks ≠ "")
    (hblanks : Text.AllBlank blanks.toList) (x y : String) :
    a.analyze (x ++ blanks ++ y) = a.analyze x ++ a.analyze y := by
  have hcuts : ∀ c ∈ blanks.toList, keep c = false := fun c hc => h.cut c (hblanks c hc)
  have hnil : blanks.toList ≠ [] := by simpa using hne
  simp only [h.analyze, String.toList_append]
  rw [Text.runs_append_cuts hnil hcuts, List.filterMap_append]

/-- The terms of a text are those of its words. -/
theorem analyze_eq_flatMap_words (h : ByRuns a keep term?) (text : String) :
    a.analyze text = (Text.words text).flatMap a.analyze := by
  have hwide : ∀ c, keep c → !Text.isBlank c := by
    intro c hc
    rw [Bool.not_eq_true', Bool.eq_false_iff]
    intro hblank
    rw [h.cut c hblank] at hc
    exact Bool.false_ne_true hc
  rw [Text.words_eq_map_runs, List.flatMap_map]
  simp only [h.analyze, String.toList_ofList]
  rw [Text.runs_eq_flatMap_runs hwide, List.filterMap_flatMap]

end ByRuns

/-- No term is empty, whatever the analyzer. -/
theorem empty_notMem_analyze (a : Analyzer) (text : String) : "" ∉ a.analyze text := by
  by_cases ha : a = .keyword
  · rw [ha, analyze]
    split
    · exact List.not_mem_nil
    · rename_i htext
      rw [List.mem_singleton]
      rintro rfl
      exact htext rfl
  · obtain ⟨keep, term?, h⟩ := exists_byRuns ha
    rw [h.analyze, List.mem_filterMap]
    rintro ⟨run, hrun, hterm⟩
    exact h.ne_empty run (Text.ne_nil_of_mem_runs hrun) hterm

end Analyzer

/-! ## Terms of conditions -/

namespace Condition

variable {s : Schema} {field : String} {analyzer : Analyzer}

/-- A query for several terms looks for them in their order. -/
theorem payloads_anyTerm (field : String) (terms : List String) :
    (anyTerm field terms).payloads = terms.map fun term => (field, .str term) := by
  unfold anyTerm
  split
  · simp [Query.payloads]
  · simp [Query.payloads]
  · rw [Query.payloads, Query.clausePayloads_eq_flatMap, List.flatMap_map, List.map_eq_flatMap]
    simp only [Query.payloads]

theorem exists_mapper_of_analyzer? (ha : s.analyzer? field = some analyzer) :
    ∃ m, s.mapper? field = some m ∧ m.analyzer? = some analyzer ∧ m.tag = .text := by
  rw [Schema.analyzer?, Option.bind_eq_some_iff] at ha
  obtain ⟨m, hm, ha⟩ := ha
  obtain ⟨own, hkind, -⟩ := Mapper.kind_of_analyzer? ha
  exact ⟨m, hm, ha, Mapper.tag_eq_text hkind⟩

/-- The payload of a literal in a field of texts is its canonical text. -/
theorem payload_of_canonical? {m : Mapper} (ha : m.analyzer? = some analyzer) {v : Value}
    {text : String} (hv : v.canonical? = some text) : payload m v = .ok (.str text) := by
  obtain ⟨own, hkind, -⟩ := Mapper.kind_of_analyzer? ha
  have hscalar : v.isScalar := by
    cases v with
    | null => cases hv
    | list items => cases hv
    | _ => rfl
  have hpayload : m.kind.payload? v = some (.str text) := by
    rw [hkind, MapperKind.payload?, hv, Option.map_some]
  refine payload_eq_ok.2 ((Mapper.coerce_eq_some (Mapper.isSpatial_of_analyzer? ha)).2 ?_)
  exact ⟨hscalar, MapperKind.coerce_eq_ok.2 hpayload⟩

/-- A literal is looked for by the terms of its text. -/
theorem matchQuery_of_canonical? (ha : s.analyzer? field = some analyzer) {v : Value}
    {text : String} (hv : v.canonical? = some text) :
    matchQuery s field v = .ok (anyTerm field (analyzer.analyze text)) := by
  obtain ⟨m, hm, hanalyzer, -⟩ := exists_mapper_of_analyzer? ha
  have hscalar : scalarMapper s field .matching = .ok m :=
    scalarMapper_eq_ok.2 ⟨hm, Mapper.isSpatial_of_analyzer? hanalyzer⟩
  rw [matchQuery, hscalar, ok_bind, payload_of_canonical? hanalyzer hv, ok_bind, ha]
  rfl

/-- A phrase is looked for by the terms of its text, if there are any. -/
theorem query_phrase (ha : s.analyzer? field = some analyzer) (text : String) (slop : UInt32) :
    Leaf.query s (.phrase field text slop) =
      .ok (if (analyzer.analyze text).isEmpty then .matchNone
        else .phrase field (analyzer.analyze text) slop) := by
  obtain ⟨m, hm, -, htag⟩ := exists_mapper_of_analyzer? ha
  have hstring : m.tag.isString := by
    rw [htag]
    rfl
  rw [Leaf.query, stringMapper_eq_ok.2 ⟨hm, hstring⟩, ok_bind, ha]
  rfl

end Condition

/-! ## Word by word -/

/-- What is known of an analyzer that takes texts word by word: blanks separate the terms of two
texts, a text has the terms of its words, and these are looked for, in order, where a condition is
about the text. -/
structure Analyzer.ByWords (a : Analyzer) : Prop where
  append : ∀ blanks, blanks ≠ "" → Text.AllBlank blanks.toList → ∀ x y,
    a.analyze (x ++ blanks ++ y) = a.analyze x ++ a.analyze y
  words : ∀ text, a.analyze text = (Text.words text).flatMap a.analyze
  matching : ∀ (s : Schema) field, s.analyzer? field = some a → ∀ boost (v : Value) text,
    v.canonical? = some text → ∃ q,
      ((Condition.leaf boost (.literal .matching field v)).compile s).result = .ok q ∧
        q.payloads =
          ((Text.words text).flatMap a.analyze).map fun term => (field, .str term)
  phrase : ∀ (s : Schema) field, s.analyzer? field = some a → ∀ boost text slop,
    ((Condition.leaf boost (.phrase field text slop)).compile s).result = .ok
      (if ((Text.words text).flatMap a.analyze).isEmpty then Query.matchNone.boosted boost
        else (Query.phrase field ((Text.words text).flatMap a.analyze) slop).boosted boost)

/-- No analyzer makes an empty term, and all but the one for whole texts go word by word. -/
theorem Analyzer.byWords_of_ne_keyword (a : Analyzer) :
    (∀ text, "" ∉ a.analyze text) ∧ (a ≠ .keyword → a.ByWords) := by
  refine ⟨a.empty_notMem_analyze, fun ha => ?_⟩
  obtain ⟨keep, term?, h⟩ := exists_byRuns ha
  have hwords := h.analyze_eq_flatMap_words
  refine ⟨fun blanks hne hblanks => h.analyze_append hne hblanks, hwords, ?_, ?_⟩
  · intro s field hs boost v text hv
    refine ⟨(Condition.anyTerm field (a.analyze text)).boosted boost, ?_, ?_⟩
    · simp only [Condition.compile, Condition.query, Condition.Leaf.query,
        Condition.matchQuery_of_canonical? hs hv]
      rfl
    · rw [Query.payloads_boosted, Condition.payloads_anyTerm, hwords]
  · intro s field hs boost text slop
    simp only [Condition.compile, Condition.query, Condition.query_phrase hs, ← hwords]
    cases (a.analyze text).isEmpty <;> rfl

/-- Titles in terms, of no analyzer of their own. -/
def sampleTitles : Schema :=
  .ofMappers .standard [⟨"title", "title", true, false, defaultBoost, .text none⟩]

/-- The sigma before a blank ends its word, as it does where the text ends there. -/
theorem Analyzer.byWords_of_ne_keyword_sigma :
    Analyzer.standard ≠ .keyword ∧ Text.AllBlank "\u3000 ".toList ∧
      Analyzer.standard.analyze ("ΑΣ" ++ "\u3000 " ++ "Α") =
        Analyzer.standard.analyze "ΑΣ" ++ Analyzer.standard.analyze "Α" ∧
      sampleTitles.analyzer? "title" = some .standard ∧
      ∃ q, ((Condition.leaf defaultBoost
          (.literal .matching "title" (.text "ΑΣ\u3000 Α"))).compile sampleTitles).result = .ok q ∧
        q.payloads = [("title", .str "ας"), ("title", .str "α")] := by
  have hne : Analyzer.standard ≠ .keyword := by decide
  have hblanks : Text.AllBlank "\u3000 ".toList := by decide
  have hs : sampleTitles.analyzer? "title" = some .standard := rfl
  have hterms : (Text.words "ΑΣ\u3000 Α").flatMap Analyzer.standard.analyze = ["ας", "α"] := by
    decide +kernel
  have hbywords := (Analyzer.standard.byWords_of_ne_keyword).2 hne
  obtain ⟨q, hq, hpayloads⟩ := hbywords.matching _ _ hs defaultBoost (.text "ΑΣ\u3000 Α") _ rfl
  rw [hterms] at hpayloads
  exact ⟨hne, hblanks, hbywords.append _ (by decide) hblanks _ _, hs, q, hq, hpayloads⟩

end ColumnIndex
