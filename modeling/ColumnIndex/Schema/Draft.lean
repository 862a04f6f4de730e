import ColumnIndex.Mapper.Draft
import ColumnIndex.Schema

/-!
# Drafts of schemas

The draft of a schema names a default analyzer, and gives drafts of mappers to field names. A name
may be given twice in a draft, but not in a schema.

## Main definitions

* `Schema.Draft` — the drafts.
* `Schema.Draft.same` — equality of drafts.
* `Schema.Draft.compose` — the schema of a draft.
* `Schema.Draft.build` — the same with the event that it causes.
-/
namespace ColumnIndex.Schema

/-- What a schema is to be. -/
structure Draft where
  defaultAnalyzer : Option String := none
  fields : List (String × Mapper.Draft) := []

/-- Whether two lists give equal drafts to the same names in the same order. -/
def sameFields : List (String × Mapper.Draft) → List (String × Mapper.Draft) → Bool
  | [], [] => true
  | (a, x) :: as, (b, y) :: bs => a == b && x.same y && sameFields as bs
  | _, _ => false

/-- Whether two drafts are equal. -/
def Draft.same (a b : Draft) : Bool :=
  a.defaultAnalyzer == b.defaultAnalyzer && sameFields a.fields b.fields

/-- What may be wrong with the draft of a schema. -/
inductive DraftFault
  | unknownAnalyzer (name : String)
  | repeatedField (name : String)
  | mapper (fault : Mapper.DraftFault)

instance : Reported DraftFault where
  report
    | .unknownAnalyzer name =>
      ⟨.schemaValidation, .schema, "unknown default analyzer '" ++ name ++ "'"⟩
    | .repeatedField name => ⟨.schemaValidation, .schema, "duplicate field '" ++ name ++ "'"⟩
    | .mapper fault => report fault

/-- The mappers of the fields; none of them may have a name that came before. -/
def composeFields (analyzer : Analyzer) (seen : List String) :
    List (String × Mapper.Draft) → Except DraftFault (List Mapper)
  | [] => .ok []
  | (field, d) :: rest =>
    if field ∈ seen then .error (.repeatedField field)
    else do
      let m ← (d.build field).mapError .mapper
      let ms ← composeFields analyzer (field :: seen) rest
      pure (m.resolveAnalyzer analyzer :: ms)

/-- The schema of a draft. -/
def Draft.compose (d : Draft) : Except DraftFault Schema :=
  let name := d.defaultAnalyzer.getD Analyzer.standard.name
  match Analyzer.ofName? name with
  | none => .error (.unknownAnalyzer name)
  | some analyzer => do
    let mappers ← composeFields analyzer [] d.fields
    pure (.ofMappers analyzer mappers)

/-- The schema of a draft; success is an event. -/
def Draft.build (d : Draft) : Recorded Schema := do
  let s ← .ofExcept d.compose
  .note (.schemaBuilt s.size)
  pure s

end ColumnIndex.Schema
