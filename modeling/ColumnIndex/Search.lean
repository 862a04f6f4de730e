import ColumnIndex.Condition.Compile
import ColumnIndex.Condition.Draft

/-!
# Searches

A search has a condition that scores the rows it finds, one that only selects them, or both; the
criteria of the order of the results; and whether the index is to be refreshed before.

## Main definitions

* `Search`, `Search.Draft` — the searches and their drafts.
* `Search.Draft.build` — the search of a draft.
* `Search.compile` — the query and the criteria of a search against a schema.
-/
namespace ColumnIndex

/-- A criterion of the order of results, by a logical field. -/
structure SortRequest where
  field : String
  reverse : Bool
  deriving DecidableEq

/-- A search. -/
structure Search where
  query : Option Condition
  filter : Option Condition
  sort : List SortRequest
  refresh : Bool

/-- What the engine receives for a search. -/
structure CompiledSearch where
  query : Query
  sort : List SortField

namespace Search

/-- Whether the index is to be refreshed before. -/
def requiresRefresh (s : Search) : Bool := s.refresh

/-- Whether the results have scores. -/
def usesRelevance (s : Search) : Bool := s.query.isSome

/-! ## Drafts -/

/-- What a search is to be. -/
structure Draft where
  query : Option Condition.Draft := none
  filter : Option Condition.Draft := none
  sort : List SortRequest := []
  refresh : Option Bool := none

/-- Whether two drafts of conditions are both missing, or there and equal. -/
def sameCondition : Option Condition.Draft → Option Condition.Draft → Bool
  | none, none => true
  | some a, some b => a.same b
  | _, _ => false

/-- Whether two drafts are equal. -/
def Draft.same (a b : Draft) : Bool :=
  sameCondition a.query b.query && sameCondition a.filter b.filter && a.sort == b.sort
    && a.refresh == b.refresh

/-- What may be wrong with the draft of a search. -/
inductive DraftFault
  | blankSort
  | condition (fault : Condition.DraftFault)

instance : Reported DraftFault where
  report
    | .blankSort => ⟨.schemaValidation, .condition, "sort field name must not be empty"⟩
    | .condition fault => report fault

/-- The condition of a draft, if there is one. -/
def buildCondition : Option Condition.Draft → Except DraftFault (Option Condition)
  | none => .ok none
  | some d => (d.build.map some).mapError .condition

/-- The search of a draft. -/
def Draft.build (d : Draft) : Except DraftFault Search :=
  if d.sort.any fun s => Text.isBlankText s.field then .error .blankSort
  else do
    let query ← buildCondition d.query
    let filter ← buildCondition d.filter
    pure ⟨query, filter, d.sort, d.refresh.getD false⟩

/-! ## Compiling -/

/-- The query of a search. -/
def compileQuery (s : Search) (schema : Schema) : Recorded Query :=
  match s.query, s.filter with
  | some query, some filter => do
    let q ← query.compile schema
    let f ← filter.compile schema
    pure (.boolean [(.must, q), (.filter, f)])
  | some query, none => query.compile schema
  | none, some filter => do
    let f ← filter.compile schema
    pure (.constantScore f)
  | none, none => pure .matchAll

/-- The criteria of a search. -/
def compileSort (schema : Schema) : List SortRequest → Except CompileFault (List SortField)
  | [] => .ok []
  | s :: ss => do
    let field ← schema.sortField s.field s.reverse
    let fields ← compileSort schema ss
    pure (field :: fields)

/-- The query and the criteria of a search. -/
def compile (s : Search) (schema : Schema) : Recorded CompiledSearch := do
  let query ← s.compileQuery schema
  let sort ← .ofExcept (compileSort schema s.sort)
  pure ⟨query, sort⟩

end Search

end ColumnIndex
