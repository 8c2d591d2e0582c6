import ChangeStream.Entry
import ChangeStream.Record
import ChangeStream.RunContext
import ChangeStream.Source

/-!
# Traces

What can be seen of a read from outside, in the order in which it happens: what is handed to the
sink and how the sink answers, which errors are reported, what is told to the log, and what an
engine finds out when it looks around.
-/

namespace ChangeStream

/-- What an engine is called with. -/
structure EngineCall where
  kind : RunKind
  pollInterval : Duration
  source : Source
  start : Position
deriving DecidableEq

/-- A task as others see it. -/
structure TaskStatus where
  state : TaskState
  running : Bool
deriving DecidableEq

/-- A read as its engine sees it: why it has stopped, if it has, and the task that owns
it, if one does. -/
structure ReadStatus where
  stopReason : Option StopReason
  task : Option TaskStatus
deriving DecidableEq

/-- Something that can be seen from outside. -/
inductive Occurrence
  | logged (event : LogEvent)
  /-- A record was handed to the sink, which took it or refused. -/
  | dispatched (record : Record) (refusal : Option DispatchError)
  | reported (error : FetchError)
  | entered (call : EngineCall) (status : ReadStatus)
  | observed (status : ReadStatus)
  /-- The engine finished the read; whether that counted. -/
  | finishCalled (effective : Bool)
  /-- The engine failed the read; whether that counted. -/
  | failCalled (effective : Bool)
  | roundTaken (round : Nat) (status : ReadStatus)
  /-- The engine executed the task that it was called by, if there is one. -/
  | executedAgain (entry : Option Entry)

/-- A sequence of occurrences. -/
abbrev Trace := List Occurrence

namespace Trace

/-- The log events. -/
def logs (trace : Trace) : List LogEvent :=
  trace.filterMap fun
    | .logged event => some event
    | _ => none

/-- The records handed to the sink, with its answers. -/
def attempts (trace : Trace) : List (Record × Option DispatchError) :=
  trace.filterMap fun
    | .dispatched record refusal => some (record, refusal)
    | _ => none

/-- The records that the sink took. -/
def accepted (trace : Trace) : List Record :=
  trace.filterMap fun
    | .dispatched record none => some record
    | _ => none

/-- The errors reported. -/
def reports (trace : Trace) : List FetchError :=
  trace.filterMap fun
    | .reported error => some error
    | _ => none

/-- The calls of the engine. -/
def calls (trace : Trace) : List EngineCall :=
  trace.filterMap fun
    | .entered call _ => some call
    | _ => none

/-- The trace of log events. -/
def ofLogs (events : List LogEvent) : Trace := events.map .logged

end Trace

end ChangeStream
