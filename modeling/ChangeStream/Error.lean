import ChangeStream.Position.Basic
import ChangeStream.SplitId

/-!
# What can go wrong

Three kinds of errors: of the engine that reads the log, of the sink that takes the events, and of a
fetch as a whole. Each has a message and the messages of its causes, the outermost first. A fetch
that fails because of its engine speaks with the engine's words.
-/

namespace ChangeStream

/-- A failure of the engine that reads the log. -/
inductive EngineError
  | failed (reason : String)
  | io (reason : String)
  | interrupted
deriving DecidableEq

/-- A failure to hand an event to the sink. -/
inductive DispatchError
  /-- Nobody takes events any more. -/
  | disconnected
  | interrupted
  /-- The sink does not want the event. -/
  | rejected (reason : String)
deriving DecidableEq

/-- What was being handed to the sink. -/
inductive EventKind
  | watermark
  | change
deriving DecidableEq

/-- A failure of a fetch. -/
inductive FetchError
  | engine (cause : EngineError)
  | dispatch (split : SplitId) (kind : EventKind) (cause : DispatchError)
  | invalidRange (split : SplitId) (start stop : Position)
  | alreadyExecuted (split : SplitId)
  | fetcherBusy (split : SplitId)
  | spawn (reason : String)
  | taskPanicked (split : SplitId)
deriving DecidableEq

namespace EngineError

/-- The message of an engine error. -/
def message : EngineError → String
  | failed reason => "log engine failed: " ++ reason
  | io reason => "log engine i/o error: " ++ reason
  | interrupted => "log engine interrupted"

/-- The messages of the causes. -/
def causes : EngineError → List String
  | failed _ => []
  | io reason => [reason]
  | interrupted => []

end EngineError

/-- The message of a dispatch error, which has no cause. -/
def DispatchError.message : DispatchError → String
  | disconnected => "event sink disconnected"
  | interrupted => "event sink interrupted"
  | rejected reason => "event sink rejected event: " ++ reason

/-- The word for what was handed over. -/
def EventKind.text : EventKind → String
  | watermark => "watermark"
  | change => "change"

namespace FetchError

/-- The message of a fetch error. -/
def message : FetchError → String
  | engine cause => cause.message
  | dispatch split kind _ =>
    "error processing log " ++ kind.text ++ " event of split " ++ split.text
  | invalidRange split start stop =>
    "split " ++ split.text ++ " ends at " ++ stop.text ++ " before its start " ++ start.text
  | alreadyExecuted split => "fetch task for split " ++ split.text ++ " was already executed"
  | fetcherBusy split => "fetcher is still running split " ++ split.text
  | spawn reason => "failed to spawn fetch thread: " ++ reason
  | taskPanicked split => "fetch thread of split " ++ split.text ++ " panicked"

/-- The messages of the causes. -/
def causes : FetchError → List String
  | engine cause => cause.causes
  | dispatch _ _ cause => [cause.message]
  | spawn reason => [reason]
  | invalidRange .. => []
  | alreadyExecuted _ => []
  | fetcherBusy _ => []
  | taskPanicked _ => []

end FetchError

end ChangeStream
