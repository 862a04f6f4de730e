import ColumnIndex.Metrics.Counters
import Mathlib.Logic.Function.Basic

/-!
# Scopes of sinks

A thread has a place for one sink. The sink in this place takes the events, and without one they
are counted. A scope puts its sink there while its body runs, and then puts back what was there
before. A sink may be that of several scopes, also of one within another.

## Main definitions

* `Thread` — the counters, the sink in force, and what the sinks have taken.
* `Thread.record` — an event goes where it belongs.
* `Thread.withSink` — a scope.
-/
namespace ColumnIndex

/-- The counters, the sink in force if there is one, and what each sink has taken so far. -/
structure Thread (Sink : Type) where
  counters : Counters := {}
  inForce : Option Sink := none
  taken : Sink → List Event := fun _ => []

namespace Thread

variable {Sink α : Type}

/-- The thread after an event: the sink in force takes it, or else it is counted. -/
def record [DecidableEq Sink] (event : Event) (t : Thread Sink) : Thread Sink :=
  match t.inForce with
  | some sink => { t with taken := Function.update t.taken sink (t.taken sink ++ [event]) }
  | none => { t with counters := t.counters.count event }

/-- The sink that was in force, and the thread with another one. -/
def install (sink : Sink) (t : Thread Sink) : Option Sink × Thread Sink :=
  (t.inForce, { t with inForce := some sink })

/-- The thread with what was in force before. -/
def restore (before : Option Sink) (t : Thread Sink) : Thread Sink := { t with inForce := before }

@[simp] theorem inForce_install (sink : Sink) (t : Thread Sink) :
    (t.install sink).2.inForce = some sink := rfl

@[simp] theorem taken_install (sink : Sink) (t : Thread Sink) :
    (t.install sink).2.taken = t.taken := rfl

@[simp] theorem counters_install (sink : Sink) (t : Thread Sink) :
    (t.install sink).2.counters = t.counters := rfl

@[simp] theorem inForce_restore (before : Option Sink) (t : Thread Sink) :
    (t.restore before).inForce = before := rfl

@[simp] theorem taken_restore (before : Option Sink) (t : Thread Sink) :
    (t.restore before).taken = t.taken := rfl

@[simp] theorem counters_restore (before : Option Sink) (t : Thread Sink) :
    (t.restore before).counters = t.counters := rfl

/-- A body in the scope of a sink. -/
def withSink (sink : Sink) (body : StateM (Thread Sink) α) : StateM (Thread Sink) α := do
  let before ← modifyGet (install sink)
  let result ← body
  modify (restore before)
  pure result

end Thread

end ColumnIndex
