import ColumnIndex.Condition
import ColumnIndex.Schema

/-!
# Compiling conditions

Against a schema a condition becomes a query. Leaves find their field in the schema, literals
become payloads by way of the mapper of the field, and texts are cut into terms. The clauses of a
boolean query stand in the order of the condition.

## Main definitions

* `Condition.query` — the query of a condition.
* `Condition.compile` — the same with the events that it causes.
-/
namespace ColumnIndex.Condition

/-! ## Fields -/

/-- The fault of a condition that does not apply to a mapper. -/
def unsupported {α : Type} (m : Mapper) (tag : ConditionTag) : Except CompileFault α :=
  .error (.unsupported tag.name m.tag m.field)

/-- The mapper of a field with texts. -/
def stringMapper (s : Schema) (field : String) (tag : ConditionTag) :
    Except CompileFault Mapper := do
  let m ← s.requireMapper field
  if m.tag.isString then pure m else unsupported m tag

/-- The mapper of a field with points. -/
def spatialMapper (s : Schema) (field : String) (tag : ConditionTag) :
    Except CompileFault Mapper := do
  let m ← s.requireMapper field
  if m.tag.isSpatial then pure m else unsupported m tag

/-- The mapper of a field without points. -/
def scalarMapper (s : Schema) (field : String) (tag : ConditionTag) :
    Except CompileFault Mapper := do
  let m ← s.requireMapper field
  if m.tag.isSpatial then unsupported m tag else pure m

/-! ## Literals -/

/-- A text as the terms of a field are written: in lower case if the field ignores case. -/
def foldedText (m : Mapper) (text : String) : String :=
  match m.kind with
  | .string false => Text.lowercase text
  | _ => text

/-- The payload of a literal; an empty literal has none. -/
def payload? (m : Mapper) (v : Value) : Except CompileFault (Option FieldValue) :=
  (m.coerce m.field v).mapError (.badLiteral m.field)

/-- The payload of a literal that must have one. -/
def payload (m : Mapper) (v : Value) : Except CompileFault FieldValue := do
  match ← payload? m v with
  | some base => pure base
  | none => .error (.nullLiteral m.field)

/-- The payload of a bound of a range. -/
def bound (m : Mapper) : Option Value → Except CompileFault (Option FieldValue)
  | none => .ok none
  | some v => payload? m v

/-- The query for one of several terms. -/
def anyTerm (field : String) (terms : List String) : Query :=
  match terms with
  | [] => .matchNone
  | [term] => .term field (.str term)
  | _ => .boolean (terms.map fun term => (.should, .term field (.str term)))

/-- The query of a literal in the terms of its field. -/
def matchQuery (s : Schema) (field : String) (v : Value) : Except CompileFault Query := do
  let m ← scalarMapper s field .matching
  let base ← payload m v
  match s.analyzer? field with
  | none => pure (.term field base)
  | some analyzer => pure (anyTerm field (analyzer.analyze (base.asText?.getD "")))

/-- The queries of literals in the terms of their field, as alternatives. -/
def matchClauses (s : Schema) (field : String) :
    List Value → Except CompileFault (List (Occur × Query))
  | [] => .ok []
  | v :: vs => do
    let query ← matchQuery s field v
    let clauses ← matchClauses s field vs
    pure ((.should, query) :: clauses)

/-! ## Queries -/

/-- The query of a pattern. -/
def patternQuery : PatternForm → String → String → Query
  | .wildcard => .wildcard
  | .startsWith => .startsWith
  | .regexp => .regexp

/-- The query of a leaf. -/
def Leaf.query (s : Schema) : Leaf → Except CompileFault Query
  | pattern form field text => do
    let m ← stringMapper s field form.tag
    pure (patternQuery form field (foldedText m text))
  | fuzzy field text maxEdits prefixLength maxExpansions transpositions => do
    let m ← stringMapper s field .fuzzy
    pure (.fuzzy field (foldedText m text) maxEdits prefixLength maxExpansions transpositions)
  | literal .term field value => do
    let m ← scalarMapper s field .term
    let base ← payload m value
    pure (.term field base)
  | literal .matching field value => matchQuery s field value
  | phrase field text slop => do
    let m ← stringMapper s field .phrase
    let terms :=
      match s.analyzer? field with
      | some analyzer => analyzer.analyze text
      | none => [foldedText m text]
    pure (if terms.isEmpty then .matchNone else .phrase field terms slop)
  | contains field values => do
    let clauses ← matchClauses s field values
    pure (.boolean clauses)
  | range field lower upper includeLower includeUpper => do
    let m ← scalarMapper s field .range
    let lower ← bound m lower
    let upper ← bound m upper
    pure (.range field lower upper includeLower includeUpper)
  | geoBox field box => do
    let _ ← spatialMapper s field .geoBox
    pure (.geoBox field box)
  | geoDistance field latitude longitude minimum maximum => do
    let _ ← spatialMapper s field .geoDistance
    pure (.geoDistance field latitude longitude (minimum.map Distance.meters) maximum.meters)

/-- What a boolean query begins with: all rows, if there is nothing that is asked for. -/
def implicitClauses (must should : List Condition) : List (Occur × Query) :=
  if must.isEmpty && should.isEmpty then [(.must, .matchAll)] else []

mutual

/-- The query of a condition. -/
def query (s : Schema) : Condition → Except CompileFault Query
  | all boost => .ok (Query.matchAll.boosted boost)
  | nothing boost => .ok (Query.matchNone.boosted boost)
  | boolean boost must should not => do
    let musts ← clauses s .must must
    let shoulds ← clauses s .should should
    let nots ← clauses s .mustNot not
    pure ((Query.boolean (implicitClauses must should ++ musts ++ shoulds ++ nots)).boosted boost)
  | leaf boost l => (l.query s).map (·.boosted boost)

/-- The queries of conditions as clauses that take part in the given way. -/
def clauses (s : Schema) (occur : Occur) :
    List Condition → Except CompileFault (List (Occur × Query))
  | [] => .ok []
  | c :: cs => do
    let q ← query s c
    let qs ← clauses s occur cs
    pure ((occur, q) :: qs)

end

/-! ## With events -/

/-- The events of a compilation: the literal that was rejected, if that is what failed, and the
outcome. -/
def compileEvents (c : Condition) : Except CompileFault Query → List Event
  | .ok _ => [.queryCompiled c.nodeCount]
  | .error (.badLiteral field _) => [.coercionRejected field, .compileRejected]
  | .error _ => [.compileRejected]

/-- The query of a condition. -/
def compile (c : Condition) (s : Schema) : Recorded Query :=
  let outcome := c.query s
  ⟨outcome.mapError report, compileEvents c outcome⟩

end ColumnIndex.Condition
