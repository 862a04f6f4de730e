import ColumnIndex.IndexOptions.Document
import ColumnIndex.IndexOptions.Entries
import ColumnIndex.Mapper.Draft.Json
import ColumnIndex.Proofs.EventTotals
import ColumnIndex.Proofs.Outcome
import ColumnIndex.Search.Json

/-!
# The counters of a run

A caller performs operations one after the other, and each of them may succeed or fail. An
operation consists of calls that cause events themselves: a document is made by a call for each
mapper up to the first one that fails, and options decode and build their schema. Once it is said
which calls an operation makes, and which events a call may cause, the counters can be read off
the calls.

## Main definitions

* `Call` — the calls that cause events, and `Call.Emits`, the events that they may cause.
* `Operation` — what a caller may perform, and `Operation.calls`, the calls of which it consists.
* `Event.Fit` — whether the totals of events are below the limit of the counters.
* `Counters.Accounts` — what the counters say of the calls.

Main statement: `Recorder.accounts_recordAll`.
-/
namespace ColumnIndex

open Outcome

/-! ## Calls -/

/-- The calls that cause events by themselves. -/
inductive Call
  | decodeCondition (text : String)
  | decodeMapper (text : String)
  | decodeSchema (text : String)
  | decodeSearch (text : String)
  | buildSchema (d : Schema.Draft)
  | base (m : Mapper) (column : String) (v : Value)
  | bases (m : Mapper) (column : String) (v : Value)
  | fields (m : Mapper) (row : Columns)
  | compile (c : Condition) (s : Schema)

namespace Call

/-- The events of a call. -/
def events : Call → List Event
  | decodeCondition text => (Condition.Draft.decode text).events
  | decodeMapper text => (Mapper.Draft.decode text).events
  | decodeSchema text => (Schema.Draft.decode text).events
  | decodeSearch text => (Search.Draft.decode text).events
  | buildSchema d => d.build.events
  | base m column v => (m.base column v).events
  | bases m column v => (m.bases column v).events
  | fields m row => (m.fields row).events
  | compile c s => (c.compile s).events

/-- Whether a call succeeds. -/
def succeeds : Call → Bool
  | decodeCondition text => (Condition.Draft.decode text).result.isOk
  | decodeMapper text => (Mapper.Draft.decode text).result.isOk
  | decodeSchema text => (Schema.Draft.decode text).result.isOk
  | decodeSearch text => (Search.Draft.decode text).result.isOk
  | buildSchema d => d.build.result.isOk
  | base m column v => (m.base column v).result.isOk
  | bases m column v => (m.bases column v).result.isOk
  | fields m row => (m.fields row).result.isOk
  | compile c s => (c.compile s).result.isOk

/-- What a call decodes. -/
def decodeKind? : Call → Option DecodeKind
  | decodeCondition _ => some .condition
  | decodeMapper _ => some .mapper
  | decodeSchema _ => some .schema
  | decodeSearch _ => some .search
  | _ => none

/-- Whether something of a kind is decoded. -/
def decodes (kind : DecodeKind) (call : Call) : Bool :=
  call.decodeKind? == some kind && call.succeeds

/-- Whether a schema is built. -/
def buildsSchema : Call → Bool
  | buildSchema d => d.build.result.isOk
  | _ => false

/-- How many mappers are built. -/
def builtMappers : Call → Nat
  | buildSchema d =>
    match d.build.result with
    | .ok s => s.size
    | .error _ => 0
  | _ => 0

/-- Whether the fields of a row are made for a field. -/
def mapsRow (field : String) : Call → Bool
  | fields m row => m.field == field && (m.fields row).result.isOk
  | _ => false

/-- Whether a condition is compiled, with or without success. -/
def isCompile : Call → Bool
  | compile _ _ => true
  | _ => false

/-- How many nodes are compiled with success. -/
def compiledNodes : Call → Nat
  | compile c s => if (c.compile s).result.isOk then c.nodeCount else 0
  | _ => 0

/-! ## Events of a call -/

/-- What a call may cause: an event for its success, or a rejection, or none. -/
inductive Emits : Call → List Event → Prop
  | decoded {call : Call} {kind : DecodeKind} (hkind : call.decodeKind? = some kind)
      (h : call.succeeds) : Emits call [.jsonDecoded kind]
  | undecoded {call : Call} {kind : DecodeKind} (hkind : call.decodeKind? = some kind)
      (h : call.succeeds = false) : Emits call []
  | built {d : Schema.Draft} {s : Schema} (h : d.build.result = .ok s) :
      Emits (.buildSchema d) [.schemaBuilt s.size]
  | unbuilt {d : Schema.Draft} {e : IndexError} (h : d.build.result = .error e) :
      Emits (.buildSchema d) []
  | base {m : Mapper} {column : String} {v : Value} {events : List Event}
      (h : events = [] ∨ events = [.coercionRejected m.field]) : Emits (.base m column v) events
  | bases {m : Mapper} {column : String} {v : Value} {events : List Event}
      (h : events = [] ∨ events = [.coercionRejected m.field]) : Emits (.bases m column v) events
  | mapped {m : Mapper} {row : Columns} {fields : List Field}
      (h : (m.fields row).result = .ok fields) :
      Emits (.fields m row) [.fieldsMaterialized m.field fields.length]
  | unmapped {m : Mapper} {row : Columns} {e : IndexError} {events : List Event}
      (hresult : (m.fields row).result = .error e)
      (h : events = [] ∨ events = [.coercionRejected m.field]) : Emits (.fields m row) events
  | compiled {c : Condition} {s : Schema} {q : Query} (h : (c.compile s).result = .ok q) :
      Emits (.compile c s) [.queryCompiled c.nodeCount]
  | uncompiled {c : Condition} {s : Schema} {e : IndexError} {events : List Event}
      (hresult : (c.compile s).result = .error e)
      (h : events = [.compileRejected] ∨
        ∃ field, events = [.coercionRejected field, .compileRejected]) :
      Emits (.compile c s) events

section Noted

variable {ε α : Type} [Reported ε]

/-- A step, and an event for its success. -/
theorem noted_cases (x : Except ε α) (note : α → Event) :
    let noted : Recorded α := do
      let a ← .ofExcept x
      .note (note a)
      pure a
    (∃ a, noted.result = .ok a ∧ noted.events = [note a]) ∨
      ∃ e, noted.result = .error e ∧ noted.events = [] := by
  cases x with
  | ok a => exact .inl ⟨a, rfl, rfl⟩
  | error e => exact .inr ⟨report e, rfl, rfl⟩

end Noted

theorem rejections_cases {α : Type} (m : Mapper) (outcome : Except CoercionFault α) :
    m.rejections outcome = [] ∨ m.rejections outcome = [.coercionRejected m.field] := by
  cases outcome with
  | ok a => exact .inl rfl
  | error fault =>
    rw [Mapper.rejections]
    split
    · exact .inr rfl
    · exact .inl rfl

/-- A call that decodes causes an event if it succeeds. -/
theorem emits_decode {α : Type} {call : Call} {kind : DecodeKind} {x : Recorded α}
    (hkind : call.decodeKind? = some kind) (hsucceeds : call.succeeds = x.result.isOk)
    (hevents : call.events = x.events)
    (h : (∃ a, x.result = .ok a ∧ x.events = [.jsonDecoded kind]) ∨
      ∃ e, x.result = .error e ∧ x.events = []) : call.Emits call.events := by
  rcases h with ⟨a, ha, hx⟩ | ⟨e, he, hx⟩
  · rw [hevents, hx]
    refine .decoded hkind ?_
    rw [hsucceeds, ha]
    rfl
  · rw [hevents, hx]
    refine .undecoded hkind ?_
    rw [hsucceeds, he]
    rfl

/-- Calls cause no other events. -/
theorem emits_events (call : Call) : call.Emits call.events := by
  cases call with
  | decodeCondition text => exact emits_decode rfl rfl rfl (noted_cases _ _)
  | decodeMapper text => exact emits_decode rfl rfl rfl (noted_cases _ _)
  | decodeSchema text => exact emits_decode rfl rfl rfl (noted_cases _ _)
  | decodeSearch text => exact emits_decode rfl rfl rfl (noted_cases _ _)
  | buildSchema d =>
    have hbuild := noted_cases d.compose fun s => .schemaBuilt s.size
    rw [show (buildSchema d).events = d.build.events from rfl]
    rcases hbuild with ⟨s, hs, hevents⟩ | ⟨e, he, hevents⟩
    · rw [Schema.Draft.build, hevents]
      exact .built hs
    · rw [Schema.Draft.build, hevents]
      exact .unbuilt he
  | base m column v => exact .base (rejections_cases m _)
  | bases m column v => exact .bases (rejections_cases m _)
  | fields m row =>
    cases hrow : m.materialize row with
    | ok made =>
      have hevents : (fields m row).events = [.fieldsMaterialized m.field made.length] := by
        simp [events, Mapper.fields, hrow]
      rw [hevents]
      exact .mapped (mapError_eq_ok.2 hrow)
    | error fault =>
      have hevents : (fields m row).events = m.rejections (m.materialize row) := by
        simp [events, Mapper.fields, hrow]
      rw [hevents]
      exact .unmapped (mapError_eq_error.2 ⟨fault, hrow, rfl⟩) (rejections_cases m _)
  | compile c s =>
    have hevents : (compile c s).events = c.compileEvents (c.query s) := rfl
    rw [hevents]
    cases hquery : c.query s with
    | ok q => exact .compiled (mapError_eq_ok.2 hquery)
    | error fault =>
      refine .uncompiled (mapError_eq_error.2 ⟨fault, hquery, rfl⟩) ?_
      cases fault with
      | badLiteral field v => exact .inr ⟨field, rfl⟩
      | _ => exact .inl rfl

/-! ## What a call adds -/

/-- What the events of a call add to the counters. -/
structure Adds (call : Call) (events : List Event) : Prop where
  schemas : Event.total .schemasBuilt events = if call.buildsSchema then 1 else 0
  mappers : Event.total .mappersBuilt events = call.builtMappers
  compiled : Event.total .queriesCompiled events + Event.total .compilesRejected events =
    if call.isCompile then 1 else 0
  nodes : Event.total .nodesCompiled events = call.compiledNodes
  decoded : ∀ kind, Event.total (.decoded kind) events = if call.decodes kind then 1 else 0
  rows : ∀ field, Event.fieldTotal field .rowsMapped events = if call.mapsRow field then 1 else 0

theorem adds_decode {call : Call} {kind : DecodeKind} (hkind : call.decodeKind? = some kind) :
    call.Adds (if call.succeeds then [.jsonDecoded kind] else []) := by
  have hdecodes (counted : DecodeKind) :
      call.decodes counted = (kind == counted && call.succeeds) := by
    simp [decodes, hkind]
  cases hsucceeds : call.succeeds with
  | false =>
    have hgain (counted : DecodeKind) :
        Event.total (.decoded counted) [] = if call.decodes counted then 1 else 0 := by
      simp [hdecodes, hsucceeds]
    cases call <;> first
      | exact ⟨rfl, rfl, rfl, rfl, hgain, fun _ => rfl⟩
      | cases hkind
  | true =>
    have hgain (counted : DecodeKind) :
        Event.total (.decoded counted) [.jsonDecoded kind] =
          if call.decodes counted then 1 else 0 := by
      simp [hdecodes, hsucceeds, Event.gain]
    cases call <;> first
      | exact ⟨rfl, rfl, rfl, rfl, hgain, fun _ => rfl⟩
      | cases hkind

/-- The events of a call add what they should. -/
theorem adds_of_emits {call : Call} {events : List Event} (h : call.Emits events) :
    call.Adds events := by
  cases h with
  | decoded hkind h | undecoded hkind h => simpa [h] using adds_decode hkind
  | built h =>
    refine ⟨?_, ?_, rfl, rfl, fun _ => rfl, fun _ => rfl⟩
    · simp [buildsSchema, h, Except.isOk, Except.toBool, Event.gain]
    · simp [builtMappers, h, Event.gain]
  | unbuilt h =>
    refine ⟨?_, ?_, rfl, rfl, fun _ => rfl, fun _ => rfl⟩
    · simp [buildsSchema, h, Except.isOk, Except.toBool]
    · simp [builtMappers, h]
  | base h | bases h =>
    rcases h with rfl | rfl
    · exact ⟨rfl, rfl, rfl, rfl, fun _ => rfl, fun _ => rfl⟩
    · refine ⟨rfl, rfl, rfl, rfl, fun _ => rfl, fun field => ?_⟩
      simp [Event.fieldGainOf, Event.fieldGain, mapsRow]
  | mapped h =>
    refine ⟨rfl, rfl, rfl, rfl, fun _ => rfl, fun field => ?_⟩
    simp [Event.fieldGainOf, Event.fieldGain, Event.field?, mapsRow, h, Except.isOk, Except.toBool]
  | unmapped hresult h =>
    rcases h with rfl | rfl
    · refine ⟨rfl, rfl, rfl, rfl, fun _ => rfl, fun field => ?_⟩
      simp [mapsRow, hresult, Except.isOk, Except.toBool]
    · refine ⟨rfl, rfl, rfl, rfl, fun _ => rfl, fun field => ?_⟩
      simp [Event.fieldGainOf, Event.fieldGain, mapsRow, hresult, Except.isOk, Except.toBool]
  | compiled h =>
    refine ⟨rfl, rfl, rfl, ?_, fun _ => rfl, fun _ => rfl⟩
    simp [compiledNodes, h, Except.isOk, Except.toBool, Event.gain]
  | uncompiled hresult h =>
    rcases h with rfl | ⟨field, rfl⟩
    · refine ⟨rfl, rfl, rfl, ?_, fun _ => rfl, fun _ => rfl⟩
      simp [compiledNodes, hresult, Except.isOk, Except.toBool, Event.gain]
    · refine ⟨rfl, rfl, rfl, ?_, fun _ => rfl, fun name => ?_⟩
      · simp [compiledNodes, hresult, Except.isOk, Except.toBool, Event.gain]
      · simp [Event.fieldGainOf, Event.fieldGain, mapsRow]

theorem adds_events (call : Call) : call.Adds call.events := adds_of_emits (emits_events call)

/-! ## Many calls -/

section Runs

variable (calls : List Call)

/-- A total that grows by one for some of the calls is their number. -/
theorem sum_flatMap_eq_countP {count : List Event → Nat} {p : Call → Bool}
    (hnil : count [] = 0) (happend : ∀ as bs, count (as ++ bs) = count as + count bs)
    (h : ∀ call : Call, count call.events = if p call then 1 else 0) :
    count (calls.flatMap events) = calls.countP p := by
  induction calls with
  | nil => exact hnil
  | cons call calls ih =>
    rw [List.flatMap_cons, happend, h, ih, List.countP_cons, Nat.add_comm]

/-- A total that grows by something for each call is the sum of that. -/
theorem sum_flatMap_eq_sum {count : List Event → Nat} {f : Call → Nat}
    (hnil : count [] = 0) (happend : ∀ as bs, count (as ++ bs) = count as + count bs)
    (h : ∀ call : Call, count call.events = f call) :
    count (calls.flatMap events) = (calls.map f).sum := by
  induction calls with
  | nil => exact hnil
  | cons call calls ih =>
    rw [List.flatMap_cons, happend, h, ih, List.map_cons, List.sum_cons]

end Runs

end Call

/-! ## Operations -/

/-- What a caller may perform. Drafts are decoded and built, and so are schemas, searches and
options; cells, rows and conditions are put through mappers and schemas. -/
inductive Operation
  | decodeCondition (text : String)
  | decodeMapper (text : String)
  | decodeSchemaDraft (text : String)
  | decodeSearchDraft (text : String)
  | decodeSchema (text : String)
  | decodeSearch (text : String)
  | readEntries (entries : List (String × String))
  | readDocument (text : String)
  | buildCondition (d : Condition.Draft)
  | buildMapper (d : Mapper.Draft) (field : String)
  | buildSchema (d : Schema.Draft)
  | buildSearch (d : Search.Draft)
  | base (m : Mapper) (column : String) (v : Value)
  | bases (m : Mapper) (column : String) (v : Value)
  | fields (m : Mapper) (row : Columns)
  | document (s : Schema) (row : Columns)
  | compileCondition (c : Condition) (s : Schema)
  | compileSearch (search : Search) (s : Schema)

namespace Operation

/-- The events of an operation. -/
def events : Operation → List Event
  | decodeCondition text => (Condition.Draft.decode text).events
  | decodeMapper text => (Mapper.Draft.decode text).events
  | decodeSchemaDraft text => (Schema.Draft.decode text).events
  | decodeSearchDraft text => (Search.Draft.decode text).events
  | decodeSchema text => (Schema.decode text).events
  | decodeSearch text => (Search.decode text).events
  | readEntries entries => (IndexOptions.ofEntries entries).events
  | readDocument text => (IndexOptions.ofDocument text).events
  | buildCondition d => (Recorded.ofExcept d.build).events
  | buildMapper d field => (Recorded.ofExcept (d.build field)).events
  | buildSchema d => d.build.events
  | buildSearch d => (Recorded.ofExcept d.build).events
  | base m column v => (m.base column v).events
  | bases m column v => (m.bases column v).events
  | fields m row => (m.fields row).events
  | document s row => (s.document row).events
  | compileCondition c s => (c.compile s).events
  | compileSearch search s => (search.compile s).events

/-! ### Calls of an operation -/

/-- A schema is built from the draft that was decoded. -/
def schemaCalls (text : String) : List Call :=
  .decodeSchema text ::
    match Schema.Draft.parse text with
    | .ok d => [.buildSchema d]
    | .error _ => []

/-- Options decode their schema, if they can be read and have one. -/
def optionCalls (options : Except OptionsFault IndexOptions.Draft) : List Call :=
  match options with
  | .ok d => d.schema.toList.flatMap schemaCalls
  | .error _ => []

/-- The mappers are asked in order, up to the first one that fails. -/
def rowCalls (row : Columns) : List Mapper → List Call
  | [] => []
  | m :: ms => .fields m row :: if (m.fields row).result.isOk then rowCalls row ms else []

/-- The query is compiled, and then the filter, unless the query failed. -/
def searchCalls (search : Search) (s : Schema) : List Call :=
  match search.query, search.filter with
  | some query, some filter =>
    .compile query s :: if (query.compile s).result.isOk then [.compile filter s] else []
  | some query, none => [.compile query s]
  | none, some filter => [.compile filter s]
  | none, none => []

/-- The calls of which an operation consists, in order. -/
def calls : Operation → List Call
  | decodeCondition text => [.decodeCondition text]
  | decodeMapper text => [.decodeMapper text]
  | decodeSchemaDraft text => [.decodeSchema text]
  | decodeSearchDraft text => [.decodeSearch text]
  | decodeSchema text => schemaCalls text
  | decodeSearch text => [.decodeSearch text]
  | readEntries entries => optionCalls (IndexOptions.Draft.ofEntries entries)
  | readDocument text => optionCalls (IndexOptions.Draft.ofDocument text)
  | buildCondition _ => []
  | buildMapper _ _ => []
  | buildSchema d => [.buildSchema d]
  | buildSearch _ => []
  | base m column v => [.base m column v]
  | bases m column v => [.bases m column v]
  | fields m row => [.fields m row]
  | document s row => rowCalls row s.mappers
  | compileCondition c s => [.compile c s]
  | compileSearch search s => searchCalls search s

/-- What is done after a step without further events leaves the events as they are. -/
theorem events_bind_silent {α β : Type} (x : Recorded α) {f : α → Recorded β}
    (h : ∀ a, (f a).events = []) : (x >>= f).events = x.events := by
  cases hx : x.result with
  | error e => exact Recorded.events_bind_error hx f
  | ok a => rw [Recorded.events_bind_ok hx, h, List.append_nil]

theorem events_schemaCalls (text : String) :
    (Schema.decode text).events = (schemaCalls text).flatMap Call.events := by
  rw [schemaCalls, List.flatMap_cons]
  cases h : Schema.Draft.parse text with
  | error fault =>
    have hdecode : (Schema.Draft.decode text).result = .error (report fault) := by
      rw [Schema.Draft.decode, h]
      rfl
    rw [Schema.decode, Recorded.events_bind_error hdecode]
    simp [Call.events]
  | ok d =>
    have hdecode : (Schema.Draft.decode text).result = .ok d := by
      rw [Schema.Draft.decode, h]
      rfl
    rw [Schema.decode, Recorded.events_bind_ok hdecode]
    simp [Call.events]

theorem events_optionCalls (options : Except OptionsFault IndexOptions.Draft) :
    (Recorded.ofExcept options >>= IndexOptions.Draft.build).events =
      (optionCalls options).flatMap Call.events := by
  cases options with
  | error fault => rfl
  | ok d =>
    have hread : (Recorded.ofExcept (.ok d : Except OptionsFault IndexOptions.Draft)).result =
      .ok d := rfl
    rw [Recorded.events_bind_ok hread, Recorded.events_ofExcept, List.nil_append, optionCalls,
      IndexOptions.Draft.build]
    cases hschema : d.schema with
    | none =>
      have htext : (Recorded.ofExcept d.schemaText).result =
          .error (report OptionsFault.schemaMissing) := by
        simp [IndexOptions.Draft.schemaText, hschema, Except.mapError]
      rw [Recorded.events_bind_error htext]
      rfl
    | some text =>
      have htext : (Recorded.ofExcept d.schemaText).result = .ok text := by
        simp [IndexOptions.Draft.schemaText, hschema, Except.mapError]
      rw [Recorded.events_bind_ok htext, Recorded.events_ofExcept, List.nil_append,
        Option.toList_some, List.flatMap_singleton, ← events_schemaCalls,
        ← Recorded.events_mapError fun e => report (OptionsFault.badSchema e)]
      exact events_bind_silent _ fun schema => rfl

theorem events_rowCalls (row : Columns) (mappers : List Mapper) :
    (Schema.fieldsOf row mappers).events = (rowCalls row mappers).flatMap Call.events := by
  induction mappers with
  | nil => rfl
  | cons m ms ih =>
    rw [Schema.fieldsOf, rowCalls, List.flatMap_cons]
    cases hm : (m.fields row).result with
    | error e =>
      rw [Recorded.events_bind_error hm]
      simp [Call.events, Except.isOk, Except.toBool]
    | ok fields =>
      rw [Recorded.events_bind_ok hm, events_bind_silent _ fun rest => rfl, ih]
      simp [Call.events, Except.isOk, Except.toBool]

theorem events_searchCalls (search : Search) (s : Schema) :
    (search.compile s).events = (searchCalls search s).flatMap Call.events := by
  rw [Search.compile, events_bind_silent _ fun query => ?_, Search.compileQuery, searchCalls]
  · cases search.query with
    | none =>
      cases search.filter with
      | none => rfl
      | some filter =>
        simp only [List.flatMap_singleton]
        exact events_bind_silent _ fun f => rfl
    | some query =>
      cases search.filter with
      | none => simp [Call.events]
      | some filter =>
        simp only [List.flatMap_cons]
        cases hquery : (query.compile s).result with
        | error e =>
          rw [Recorded.events_bind_error hquery]
          simp [Call.events, Except.isOk, Except.toBool]
        | ok q =>
          rw [Recorded.events_bind_ok hquery, events_bind_silent _ fun f => rfl]
          simp [Call.events, Except.isOk, Except.toBool]
  · exact events_bind_silent _ fun sort => rfl

/-- The events of an operation are those of its calls. -/
theorem events_eq (op : Operation) : op.events = op.calls.flatMap Call.events := by
  cases op with
  | decodeSchema text => exact events_schemaCalls text
  | decodeSearch text =>
    rw [events, Search.decode, events_bind_silent _ fun d => rfl]
    simp [calls, Call.events]
  | readEntries entries => exact events_optionCalls _
  | readDocument text => exact events_optionCalls _
  | buildCondition d | buildMapper d field | buildSearch d => rfl
  | document s row =>
    rw [events, Schema.document, events_bind_silent _ fun fields => rfl]
    exact events_rowCalls row s.mappers
  | compileSearch search s => exact events_searchCalls search s
  | _ => simp [events, calls, Call.events]

end Operation

/-! ## Counters of a run -/

/-- The totals of events are below the limit of the counters. -/
structure Event.Fit (events : List Event) : Prop where
  operations : ∀ k, Event.total k events < 2 ^ 64
  fields : ∀ name k, Event.fieldTotal name k events < 2 ^ 64

/-- What the counters say of calls: two of them are the sums over the fields, and the others are
numbers of calls. -/
structure Counters.Accounts (c : Counters) (calls : List Call) : Prop where
  materialized : c.operations.fieldsMaterialized =
    (c.fields.map fun entry => entry.2.fieldsMaterialized).sum
  rejected : c.operations.coercionsRejected =
    (c.fields.map fun entry => entry.2.coercionsRejected).sum
  compiled : c.operations.queriesCompiled + c.operations.compilesRejected =
    calls.countP Call.isCompile
  nodes : c.operations.nodesCompiled = (calls.map Call.compiledNodes).sum
  rows : ∀ field, (c.field field).rowsMapped = calls.countP (Call.mapsRow field)
  schemas : c.operations.schemasBuilt = calls.countP Call.buildsSchema
  mappers : c.operations.mappersBuilt = (calls.map Call.builtMappers).sum
  conditions : c.operations.conditionsDecoded = calls.countP (Call.decodes .condition)
  mapperDrafts : c.operations.mappersDecoded = calls.countP (Call.decodes .mapper)
  schemaDrafts : c.operations.schemasDecoded = calls.countP (Call.decodes .schema)
  searches : c.operations.searchesDecoded = calls.countP (Call.decodes .search)

namespace Counters

variable {events : List Event}

/-- A counter that starts at zero shows its total. -/
theorem get_countAll_of_fit (h : Event.Fit events) (k : Counter) :
    (Counters.countAll {} events).operations.get k = Event.total k events := by
  rw [get_countAll, min_counterLimit_of_lt (h.operations k)]

theorem get_field_countAll_of_fit (h : Event.Fit events) (name : String) (k : FieldCounter) :
    ((Counters.countAll {} events).field name).get k = Event.fieldTotal name k events := by
  rw [get_field_countAll, min_counterLimit_of_lt (h.fields name k)]

/-- A counter that is kept for all operations and for each field is the sum over the fields. -/
theorem get_countAll_eq_sum (h : Event.Fit events) {k : Counter} {own : FieldCounter}
    (hgain : ∀ e : Event, e.gain k = e.fieldGain own) :
    (Counters.countAll {} events).operations.get k =
      fieldSum own (Counters.countAll {} events).fields := by
  have htotal : Event.total k events = (events.map fun e => e.fieldGain own).sum := by
    simp only [Event.total, hgain]
  have hfits := h.operations k
  rw [get_countAll_of_fit h, sum_fields_countAll events (by omega), htotal]

/-- The counters after the events of calls. -/
theorem accounts_countAll (calls : List Call) (h : Event.Fit (calls.flatMap Call.events)) :
    (Counters.countAll {} (calls.flatMap Call.events)).Accounts calls := by
  have hget := get_countAll_of_fit h
  have hdecoded (kind : DecodeKind) :
      Event.total (.decoded kind) (calls.flatMap Call.events) =
        calls.countP (Call.decodes kind) :=
    Call.sum_flatMap_eq_countP calls rfl (Event.total_append _)
      fun call => call.adds_events.decoded kind
  constructor
  · have hgain (e : Event) : e.gain .fieldsMaterialized = e.fieldGain .fieldsMaterialized := by
      cases e <;> rfl
    exact get_countAll_eq_sum h hgain
  · have hgain (e : Event) : e.gain .coercionsRejected = e.fieldGain .coercionsRejected := by
      cases e <;> rfl
    exact get_countAll_eq_sum h hgain
  · have hsum := congrArg₂ (· + ·) (hget .queriesCompiled) (hget .compilesRejected)
    let count (events : List Event) : Nat :=
      Event.total .queriesCompiled events + Event.total .compilesRejected events
    have happend (as bs : List Event) : count (as ++ bs) = count as + count bs := by
      simp only [count, Event.total_append]
      omega
    exact hsum.trans
      (Call.sum_flatMap_eq_countP calls rfl happend fun call => call.adds_events.compiled)
  · exact (hget .nodesCompiled).trans
      (Call.sum_flatMap_eq_sum calls rfl (Event.total_append _) fun call => call.adds_events.nodes)
  · intro field
    exact (get_field_countAll_of_fit h field .rowsMapped).trans
      (Call.sum_flatMap_eq_countP calls rfl (Event.fieldTotal_append _ _)
        fun call => call.adds_events.rows field)
  · exact (hget .schemasBuilt).trans
      (Call.sum_flatMap_eq_countP calls rfl (Event.total_append _)
        fun call => call.adds_events.schemas)
  · exact (hget .mappersBuilt).trans
      (Call.sum_flatMap_eq_sum calls rfl (Event.total_append _)
        fun call => call.adds_events.mappers)
  · exact (hget (.decoded .condition)).trans (hdecoded .condition)
  · exact (hget (.decoded .mapper)).trans (hdecoded .mapper)
  · exact (hget (.decoded .schema)).trans (hdecoded .schema)
  · exact (hget (.decoded .search)).trans (hdecoded .search)

end Counters

/-- **The counters account for the calls.** After a reset and any operations, without an open
sink and with totals below the limit, the counters are the numbers of the calls that the
operations made. -/
theorem Recorder.accounts_recordAll (r : Recorder) (hsinks : r.sinks = [])
    (operations : List Operation) (hfit : Event.Fit (operations.flatMap Operation.events)) :
    (r.reset.recordAll (operations.flatMap Operation.events)).counters.Accounts
      (operations.flatMap Operation.calls) := by
  have hevents : operations.flatMap Operation.events =
      (operations.flatMap Operation.calls).flatMap Call.events := by
    rw [List.flatMap_assoc]
    exact List.flatMap_congr fun op _ => op.events_eq
  rw [hevents] at hfit ⊢
  have hreset : r.reset.sinks = [] := hsinks
  rw [Recorder.recordAll_of_sinks hreset]
  exact Counters.accounts_countAll _ hfit

/-- A schema with years, which are sorted by. -/
def sampleLibraryDraft : Schema.Draft :=
  { fields := [("year", { sorted := some true, kind := .integer })] }

/-- The schema of the draft. -/
def sampleLibrary : Schema :=
  .ofMappers .standard [⟨"year", "year", true, true, defaultBoost, .integer⟩]

/-- The schema is built, a row is written and another one is not, and a condition is compiled. -/
def sampleRun : List Operation :=
  [.buildSchema sampleLibraryDraft,
    .document sampleLibrary (.ofList [("year", .long 1984)]),
    .document sampleLibrary (.ofList [("year", .bool true)]),
    .compileCondition (.all defaultBoost) sampleLibrary]

theorem events_sampleRun : sampleRun.flatMap Operation.events =
    [.schemaBuilt 1, .fieldsMaterialized "year" 2, .coercionRejected "year",
      .queryCompiled 1] := rfl

/-- One row is mapped for two fields, and one value is rejected. -/
theorem Recorder.accounts_recordAll_library :
    Event.Fit (sampleRun.flatMap Operation.events) ∧
      (({} : Recorder).reset.recordAll (sampleRun.flatMap Operation.events)).counters.Accounts
        (sampleRun.flatMap Operation.calls) ∧
      (sampleRun.flatMap Operation.calls).countP (Call.mapsRow "year") = 1 := by
  have hfit : Event.Fit (sampleRun.flatMap Operation.events) := by
    rw [events_sampleRun]
    constructor
    · intro k
      rcases k with _ | _ | _ | _ | _ | _ | _ | (_ | _ | _ | _) <;> decide
    · intro name k
      refine (Event.fieldTotal_le name k _).trans_lt ?_
      cases k <;> decide
  exact ⟨hfit, Recorder.accounts_recordAll {} rfl sampleRun hfit, rfl⟩

end ColumnIndex
