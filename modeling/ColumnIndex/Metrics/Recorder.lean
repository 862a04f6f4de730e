import ColumnIndex.Metrics.Counters

/-!
# Where events go

Events are counted, unless a sink is open. An open sink takes the events instead, and of several
the one that was opened last. Closing it brings back the one before.

## Main definitions

* `Recorder` — the counters and the open sinks.
* `Recorder.record` — an event goes where it belongs.
* `Recorder.enter`, `Recorder.leave` — a sink is opened and closed.
-/
namespace ColumnIndex

/-- The counters, and what each open sink has taken so far, the last one opened first. -/
structure Recorder where
  counters : Counters := {}
  sinks : List (List Event) := []
  deriving DecidableEq

namespace Recorder

/-- The recorder after an event: the innermost open sink takes it, or else it is counted. -/
def record (r : Recorder) (event : Event) : Recorder :=
  match r.sinks with
  | [] => { r with counters := r.counters.count event }
  | taken :: outer => { r with sinks := (taken ++ [event]) :: outer }

/-- The recorder after events, in order. -/
def recordAll (r : Recorder) (events : List Event) : Recorder := events.foldl record r

/-- The recorder after a sink was opened. -/
def enter (r : Recorder) : Recorder := { r with sinks := [] :: r.sinks }

/-- The recorder after the innermost sink was closed, and the events that the sink took. -/
def leave (r : Recorder) : Recorder × List Event :=
  match r.sinks with
  | [] => (r, [])
  | taken :: outer => ({ r with sinks := outer }, taken)

/-- The recorder after all counters were set to zero. -/
def reset (r : Recorder) : Recorder := { r with counters := {} }

end Recorder

end ColumnIndex
