import ColumnIndex.Error

/-!
# Events

The operations of the index report what they do as events. An operation gives its result together
with the events that it caused, in order; where they go is decided elsewhere.

## Main definitions

* `Event` — the events.
* `Recorded` — a result or an error, with the events on the way to it.
-/
namespace ColumnIndex

/-- What may be decoded from JSON. -/
inductive DecodeKind
  | condition
  | mapper
  | schema
  | search
  deriving DecidableEq

/-- The name of what was decoded. -/
def DecodeKind.name : DecodeKind → String
  | condition => "Condition"
  | mapper => "Mapper"
  | schema => "Schema"
  | search => "Search"

/-- What an operation reports. -/
inductive Event
  | schemaBuilt (fields : Nat)
  | fieldsMaterialized (field : String) (count : Nat)
  | coercionRejected (field : String)
  | queryCompiled (nodes : Nat)
  | compileRejected
  | jsonDecoded (kind : DecodeKind)
  deriving DecidableEq

/-- A result or an error, with the events on the way to it. -/
structure Recorded (α : Type) where
  result : Except IndexError α
  events : List Event

namespace Recorded

variable {α β : Type}

/-- Two steps; the second one is left out after an error. -/
def bind (x : Recorded α) (f : α → Recorded β) : Recorded β :=
  match x.result with
  | .error e => ⟨.error e, x.events⟩
  | .ok a => ⟨(f a).result, x.events ++ (f a).events⟩

instance : Monad Recorded where
  pure a := ⟨.ok a, []⟩
  bind := bind

/-- The outcome of a step that causes no events. -/
def ofExcept {ε : Type} [Reported ε] (x : Except ε α) : Recorded α := ⟨x.mapError report, []⟩

/-- The same events, with another error in the place of an error. -/
def mapError (f : IndexError → IndexError) (x : Recorded α) : Recorded α :=
  ⟨x.result.mapError f, x.events⟩

/-- One event. -/
def note (event : Event) : Recorded Unit := ⟨.ok (), [event]⟩

@[simp] theorem result_pure (a : α) : (pure a : Recorded α).result = .ok a := rfl

@[simp] theorem events_pure (a : α) : (pure a : Recorded α).events = [] := rfl

@[simp] theorem result_bind (x : Recorded α) (f : α → Recorded β) :
    (x >>= f).result = x.result >>= fun a => (f a).result := by
  cases x with
  | mk result events => cases result <;> rfl

theorem events_bind_ok {x : Recorded α} {a : α} (h : x.result = .ok a) (f : α → Recorded β) :
    (x >>= f).events = x.events ++ (f a).events := by
  cases x with
  | mk result events =>
    subst h
    rfl

theorem events_bind_error {x : Recorded α} {e : IndexError} (h : x.result = .error e)
    (f : α → Recorded β) : (x >>= f).events = x.events := by
  cases x with
  | mk result events =>
    subst h
    rfl

@[simp] theorem result_ofExcept {ε : Type} [Reported ε] (x : Except ε α) :
    (ofExcept x).result = x.mapError report := rfl

@[simp] theorem events_ofExcept {ε : Type} [Reported ε] (x : Except ε α) :
    (ofExcept x).events = [] := rfl

@[simp] theorem result_mapError (f : IndexError → IndexError) (x : Recorded α) :
    (x.mapError f).result = x.result.mapError f := rfl

@[simp] theorem events_mapError (f : IndexError → IndexError) (x : Recorded α) :
    (x.mapError f).events = x.events := rfl

@[simp] theorem result_note (e : Event) : (note e).result = .ok () := rfl

@[simp] theorem events_note (e : Event) : (note e).events = [e] := rfl

end Recorded

end ColumnIndex
