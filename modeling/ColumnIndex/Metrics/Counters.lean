import ColumnIndex.Json.Tree
import ColumnIndex.Metrics.Event
import ColumnIndex.Number.Binary.Arithmetic

/-!
# Counters

The counters add up the events: one set for all operations, and one for each field. A counter
stops at the greatest number of sixty-four bits.

## Main definitions

* `Counters` — the counters of all operations and of the fields.
* `Counters.count` — the counters after an event.
* `Counters.report` — the counters with the averages, as a JSON tree.
-/
namespace ColumnIndex

/-- The sum, or the greatest number of sixty-four bits if the sum is greater. -/
def saturatingAdd (a b : Nat) : Nat := min (a + b) (2 ^ 64 - 1)

/-- The counters of all operations. -/
structure OperationCounters where
  schemasBuilt : Nat := 0
  mappersBuilt : Nat := 0
  fieldsMaterialized : Nat := 0
  coercionsRejected : Nat := 0
  queriesCompiled : Nat := 0
  nodesCompiled : Nat := 0
  compilesRejected : Nat := 0
  conditionsDecoded : Nat := 0
  mappersDecoded : Nat := 0
  schemasDecoded : Nat := 0
  searchesDecoded : Nat := 0
  deriving DecidableEq

/-- The counters of one field. -/
structure FieldCounters where
  rowsMapped : Nat := 0
  fieldsMaterialized : Nat := 0
  coercionsRejected : Nat := 0
  deriving DecidableEq

/-- The counters of all operations, and those of the fields in the order of their names. -/
structure Counters where
  operations : OperationCounters := {}
  fields : List (String × FieldCounters) := []
  deriving DecidableEq

namespace Counters

/-- The counters of the fields after those of one were changed; a field that had none starts at
zero, in its place in the order of names. -/
def update (change : FieldCounters → FieldCounters) (field : String) :
    List (String × FieldCounters) → List (String × FieldCounters)
  | [] => [(field, change {})]
  | (name, c) :: rest =>
    if name = field then (name, change c) :: rest
    else if field < name then (field, change {}) :: (name, c) :: rest
    else (name, c) :: update change field rest

/-- The counters of a field; a field without events has zeros. -/
def field (c : Counters) (name : String) : FieldCounters := (c.fields.lookup name).getD {}

/-- The counters of all operations after something was decoded. -/
def countDecoded (c : OperationCounters) : DecodeKind → OperationCounters
  | .condition => { c with conditionsDecoded := saturatingAdd c.conditionsDecoded 1 }
  | .mapper => { c with mappersDecoded := saturatingAdd c.mappersDecoded 1 }
  | .schema => { c with schemasDecoded := saturatingAdd c.schemasDecoded 1 }
  | .search => { c with searchesDecoded := saturatingAdd c.searchesDecoded 1 }

/-- The counters of all operations after an event. -/
def countOperation (c : OperationCounters) : Event → OperationCounters
  | .schemaBuilt fields =>
    { c with
      schemasBuilt := saturatingAdd c.schemasBuilt 1
      mappersBuilt := saturatingAdd c.mappersBuilt fields }
  | .fieldsMaterialized _ count =>
    { c with fieldsMaterialized := saturatingAdd c.fieldsMaterialized count }
  | .coercionRejected _ => { c with coercionsRejected := saturatingAdd c.coercionsRejected 1 }
  | .queryCompiled nodes =>
    { c with
      queriesCompiled := saturatingAdd c.queriesCompiled 1
      nodesCompiled := saturatingAdd c.nodesCompiled nodes }
  | .compileRejected => { c with compilesRejected := saturatingAdd c.compilesRejected 1 }
  | .jsonDecoded kind => countDecoded c kind

/-- The counters of the fields after an event. -/
def countField (fields : List (String × FieldCounters)) : Event → List (String × FieldCounters)
  | .fieldsMaterialized field count =>
    update
      (fun c =>
        { c with
          rowsMapped := saturatingAdd c.rowsMapped 1
          fieldsMaterialized := saturatingAdd c.fieldsMaterialized count })
      field fields
  | .coercionRejected field =>
    update (fun c => { c with coercionsRejected := saturatingAdd c.coercionsRejected 1 })
      field fields
  | _ => fields

/-- The counters after an event. -/
def count (c : Counters) (event : Event) : Counters :=
  ⟨countOperation c.operations event, countField c.fields event⟩

/-- The counters after events, in order. -/
def countAll (c : Counters) (events : List Event) : Counters := events.foldl count c

theorem countAll_append (c : Counters) (as bs : List Event) :
    c.countAll (as ++ bs) = (c.countAll as).countAll bs :=
  List.foldl_append

/-! ## The report -/

/-- A counter as a JSON tree. -/
def countJson (n : Nat) : Json := .number (.whole n)

/-- The counters of all operations as a JSON tree. -/
def operationsJson (c : OperationCounters) : Json :=
  .object
    [("schemas_built", countJson c.schemasBuilt),
      ("mappers_built", countJson c.mappersBuilt),
      ("fields_materialized", countJson c.fieldsMaterialized),
      ("coercions_rejected", countJson c.coercionsRejected),
      ("queries_compiled", countJson c.queriesCompiled),
      ("nodes_compiled", countJson c.nodesCompiled),
      ("compiles_rejected", countJson c.compilesRejected),
      ("conditions_decoded", countJson c.conditionsDecoded),
      ("mappers_decoded", countJson c.mappersDecoded),
      ("schemas_decoded", countJson c.schemasDecoded),
      ("searches_decoded", countJson c.searchesDecoded)]

/-- The counters of a field as members of a JSON object. -/
def fieldMembers (c : FieldCounters) : List (String × Json) :=
  [("rows_mapped", countJson c.rowsMapped),
    ("fields_materialized", countJson c.fieldsMaterialized),
    ("coercions_rejected", countJson c.coercionsRejected)]

/-- How many fields a row had on the average. -/
def averageFields (c : FieldCounters) : Double :=
  if c.rowsMapped = 0 then .zero false
  else BinaryFloat.div (.ofInt c.fieldsMaterialized) (.ofInt c.rowsMapped)

/-- The summary of a field as a JSON tree. -/
def summaryJson (name : String) (c : FieldCounters) : Json :=
  .object
    (("field", .text name) :: fieldMembers c
      ++ [("avg_fields_per_row", .number (.double (averageFields c)))])

/-- The counters with the averages, as a JSON tree. -/
def report (c : Counters) : Json :=
  .object
    [("counters",
        .object
          [("ops", operationsJson c.operations),
            ("fields", .object (c.fields.map fun (name, c) => (name, .object (fieldMembers c))))]),
      ("field_counters", .list (c.fields.map fun (name, c) => summaryJson name c))]

end Counters

end ColumnIndex
