import ColumnIndex.Engine.Query

/-!
# What a query finds

For each document the engine knows of every leaf query whether it holds. The queries built from
leaves follow by the rule of boolean queries, which this module states once, on clauses of which
it is known whether they match.

## Main definitions

* `ClausesMatch` — the rule of boolean queries.
* `Query.Matches` — whether a query matches a document.
* `BooleanHolds` — the meaning of three lists of conditions.

Main statement: with the clause for all rows in the right place, the rule gives that meaning.
-/
namespace ColumnIndex

/-- Whether a clause of the kind must match. -/
def Occur.isRequired : Occur → Bool
  | must | filter => true
  | should | mustNot => false

/-- The rule of boolean queries. An optional clause counts only where none is required. -/
structure ClausesMatch (clauses : List (Occur × Prop)) : Prop where
  required : ∀ clause ∈ clauses, clause.1.isRequired → clause.2
  prohibited : ∀ clause ∈ clauses, clause.1 = .mustNot → ¬clause.2
  optional : (∀ clause ∈ clauses, clause.1.isRequired = false) →
    ∃ clause ∈ clauses, clause.1 = .should ∧ clause.2

namespace Query

mutual

/-- Whether a query matches a document, given which leaf queries hold for it. -/
def Matches (truth : Query → Prop) : Query → Prop
  | matchAll => True
  | matchNone => False
  | boolean clauses => ClausesMatch (clauseTruths truth clauses)
  | boost query _ => Matches truth query
  | constantScore query => Matches truth query
  | query => truth query

/-- The clauses, each with whether it matches. -/
def clauseTruths (truth : Query → Prop) : List (Occur × Query) → List (Occur × Prop)
  | [] => []
  | (occur, query) :: clauses => (occur, Matches truth query) :: clauseTruths truth clauses

end

variable {truth : Query → Prop}

theorem clauseTruths_eq_map (clauses : List (Occur × Query)) :
    clauseTruths truth clauses = clauses.map fun clause => (clause.1, clause.2.Matches truth) := by
  induction clauses with
  | nil => simp [clauseTruths]
  | cons clause clauses ih => simp [clauseTruths, ih]

@[simp] theorem clauseTruths_append (a b : List (Occur × Query)) :
    clauseTruths truth (a ++ b) = clauseTruths truth a ++ clauseTruths truth b := by
  simp [clauseTruths_eq_map]

/-- A boost changes the score only. -/
@[simp] theorem matches_boosted (query : Query) (factor : Single) :
    (query.boosted factor).Matches truth ↔ query.Matches truth := by
  unfold boosted
  split
  · rfl
  · simp [Matches]

end Query

/-! ## Lists of conditions -/

/-- All of `must` and none of `not`; and some of `should`, unless there is something in `must` or
nothing in `should`. -/
def BooleanHolds (must should not : List Prop) : Prop :=
  (∀ p ∈ must, p) ∧ (∀ p ∈ not, ¬p) ∧ (must ≠ [] ∨ should = [] ∨ ∃ p ∈ should, p)

/-- Of optional clauses alone one must match. -/
theorem clausesMatch_should {α : Type} (holds : α → Prop) (xs : List α) :
    ClausesMatch (xs.map fun x => (.should, holds x)) ↔ ∃ x ∈ xs, holds x := by
  constructor
  · intro h
    obtain ⟨clause, hmem, -, hx⟩ := h.optional (by simp [Occur.isRequired])
    obtain ⟨x, hxs, rfl⟩ := List.mem_map.1 hmem
    exact ⟨x, hxs, hx⟩
  · rintro ⟨x, hxs, hx⟩
    refine ⟨by simp [Occur.isRequired], by simp, fun _ => ?_⟩
    exact ⟨(.should, holds x), List.mem_map_of_mem hxs, rfl, hx⟩

/-- The clauses of three lists, with one for all rows in front where nothing is asked for, have
the meaning of the lists. -/
theorem clausesMatch_lists (must should not : List Prop) :
    ClausesMatch ((if must.isEmpty && should.isEmpty then [(.must, True)] else [])
        ++ must.map (fun p => (.must, p)) ++ should.map (fun p => (.should, p))
        ++ not.map (fun p => (.mustNot, p))) ↔
      BooleanHolds must should not := by
  constructor
  · rintro ⟨hreq, hno, hopt⟩
    simp only [List.forall_mem_append, List.forall_mem_map] at hreq hno hopt
    refine ⟨fun p hp => hreq.1.1.2 p hp rfl, fun p hp => hno.2 p hp trivial, ?_⟩
    rcases must with _ | ⟨m, ms⟩
    · rcases should with _ | ⟨p, ps⟩
      · exact .inr (.inl rfl)
      · -- nothing is required here, so the rule asks for an optional clause
        obtain ⟨clause, hmem, hshould, hp⟩ := hopt (by simp [Occur.isRequired])
        have hin : clause ∈ (p :: ps).map fun p => (Occur.should, p) := by
          simp only [List.mem_append, List.mem_map] at hmem ⊢
          grind
        obtain ⟨p', hp', rfl⟩ := List.mem_map.1 hin
        exact .inr (.inr ⟨p', hp', hp⟩)
    · exact .inl (by simp)
  · rintro ⟨hmust, hnot, hsome⟩
    refine ⟨?_, ?_, fun hfree => ?_⟩
    · simp only [List.forall_mem_append, List.forall_mem_map]
      refine ⟨⟨⟨?_, fun p hp _ => hmust p hp⟩, by simp [Occur.isRequired]⟩,
        by simp [Occur.isRequired]⟩
      split <;> simp
    · simp only [List.forall_mem_append, List.forall_mem_map]
      refine ⟨⟨⟨?_, by simp⟩, by simp⟩, fun p hp _ => hnot p hp⟩
      split <;> simp
    · simp only [List.forall_mem_append, List.forall_mem_map] at hfree
      have hm : must = [] := List.eq_nil_iff_forall_not_mem.2 fun p hp => by
        simpa [Occur.isRequired] using hfree.1.1.2 p hp
      subst hm
      rcases hsome with h | rfl | ⟨p, hp, hholds⟩
      · exact absurd rfl h
      · -- the clause in front is itself required
        simp [Occur.isRequired] at hfree
      · refine ⟨(.should, p), ?_, rfl, hholds⟩
        exact List.mem_append_left _ (List.mem_append_right _ (List.mem_map_of_mem hp))

end ColumnIndex
