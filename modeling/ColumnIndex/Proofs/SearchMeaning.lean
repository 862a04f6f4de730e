import ColumnIndex.Proofs.ConditionMeaning
import ColumnIndex.Search

/-!
# What a search finds

A search finds what both of its conditions denote, the one that scores and the one that only
selects. Which of the two a condition is does not matter to what is found: the clause of a filter
is required as any other, and a constant score takes no document away.

Main statements: `Search.matches_compile` and `Search.denotes_iff_boolean`.
-/
namespace ColumnIndex

open Outcome

/-- A filter is required beside a clause that scores. -/
theorem clausesMatch_must_filter (p q : Prop) :
    ClausesMatch [(.must, p), (.filter, q)] ↔ p ∧ q := by
  constructor
  · intro h
    exact ⟨h.required (.must, p) (by simp) rfl, h.required (.filter, q) (by simp) rfl⟩
  · rintro ⟨hp, hq⟩
    exact ⟨by simp [hp, hq], by simp, by simp [Occur.isRequired]⟩

namespace Search

/-- The meaning of a search: both conditions hold, as far as they are there. -/
def Denotes (schema : Schema) (truth : Query → Prop) (s : Search) : Prop :=
  (∀ c ∈ s.query, c.Denotes schema truth) ∧ ∀ c ∈ s.filter, c.Denotes schema truth

variable {s : Search} {schema : Schema} {truth : Query → Prop}

/-- A search compiles as its query and its criteria do. -/
theorem compile_eq_ok {compiled : CompiledSearch} :
    (s.compile schema).result = .ok compiled ↔
      (s.compileQuery schema).result = .ok compiled.query ∧
        compileSort schema s.sort = .ok compiled.sort := by
  simp only [compile, Recorded.result_bind, Recorded.result_ofExcept, Recorded.result_pure,
    bind_eq_ok, mapError_eq_ok]
  constructor
  · rintro ⟨query, hquery, sort, hsort, h⟩
    cases h
    exact ⟨hquery, hsort⟩
  · rintro ⟨hquery, hsort⟩
    exact ⟨_, hquery, _, hsort, rfl⟩

/-- The query of a search matches where its conditions hold. -/
theorem matches_compileQuery {q : Query} (h : (s.compileQuery schema).result = .ok q) :
    q.Matches truth ↔ s.Denotes schema truth := by
  obtain ⟨query, filter, sort, refresh⟩ := s
  cases query with
  | none =>
    cases filter with
    | none =>
      cases h
      simp [Query.Matches, Denotes]
    | some filter =>
      simp only [compileQuery, Recorded.result_bind, Recorded.result_pure, bind_eq_ok] at h
      obtain ⟨f, hf, hq⟩ := h
      cases hq
      simp [Query.Matches, Denotes, Condition.matches_query (mapError_eq_ok.1 hf)]
  | some query =>
    cases filter with
    | none => simp [Denotes, Condition.matches_query (mapError_eq_ok.1 h)]
    | some filter =>
      simp only [compileQuery, Recorded.result_bind, Recorded.result_pure, bind_eq_ok] at h
      obtain ⟨q, hquery, f, hfilter, hq⟩ := h
      cases hq
      simp only [Query.Matches, Query.clauseTruths, clausesMatch_must_filter, Denotes,
        Condition.matches_query (mapError_eq_ok.1 hquery),
        Condition.matches_query (mapError_eq_ok.1 hfilter), Option.mem_def, Option.some.injEq,
        forall_eq']

/-- What the engine receives for a search matches exactly the documents that the search denotes,
whatever it is sorted by. -/
theorem matches_compile {compiled : CompiledSearch} (h : (s.compile schema).result = .ok compiled)
    {Doc : Type} (truth : Doc → Query → Prop) (d : Doc) :
    compiled.query.Matches (truth d) ↔ s.Denotes schema (truth d) :=
  matches_compileQuery (compile_eq_ok.1 h).1

/-- A search finds what the boolean condition finds that asks for both of its conditions. -/
theorem denotes_iff_boolean (s : Search) (boost : Single) :
    s.Denotes schema truth ↔
      (Condition.boolean boost (s.query.toList ++ s.filter.toList) [] []).Denotes schema truth := by
  rw [Condition.denotes_boolean, Denotes]
  simp only [List.forall_mem_append, Option.mem_toList, Option.mem_def, List.not_mem_nil,
    false_imp_iff, implies_true, true_or, or_true, and_true]

end Search

end ColumnIndex
