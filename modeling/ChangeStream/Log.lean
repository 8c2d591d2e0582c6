import ChangeStream.Lifecycle
import ChangeStream.Range

/-!
# What is written to the log

Each thing that a part of the library tells the log is an event with a level, the part that speaks,
a message and named fields.
-/

namespace ChangeStream

/-- The weight of a log event. -/
inductive Level
  | trace
  | debug
  | info
  | warn
  | error
deriving DecidableEq

/-- The part of the library that speaks. -/
inductive Component
  | context
  | reader
  | task
  | reporter
  | scriptedEngine
deriving DecidableEq

/-- Something told to the log. -/
inductive LogEvent
  /-- A context that follows its owner alone was told to finish. -/
  | finishIgnored
  | readStarted (range : Range)
  /-- The engine returned. -/
  | readStopped (split : SplitId) (reason : Option StopReason)
  | engineFailed (split : SplitId) (error : EngineError)
  | endReached (split : SplitId) (position stop : Position)
  | watermarkRefused (split : SplitId) (error : DispatchError)
  | changeDropped (split : SplitId) (position : Position)
  | changeRefused (split : SplitId) (error : DispatchError)
  | closedBeforeExecution (split : SplitId)
  | returnedWhileRunning (split : SplitId)
  | taskFinished (split : SplitId) (state : TaskState)
  | taskUnwound (split : SplitId)
  /-- An error was reported while another one was pending. -/
  | errorDropped (error : FetchError)
  | errorKept (error : FetchError)
  | scriptStarted (source : String) (start : Position)
  | scriptStopped (source : String) (reason : Option StopReason)

/-- The text of a reason that may be absent. -/
def reasonText : Option StopReason → String
  | some reason => "Some(" ++ reason.name ++ ")"
  | none => "None"

namespace LogEvent

/-- The weight of an event. -/
def level : LogEvent → Level
  | finishIgnored => .debug
  | readStarted _ => .debug
  | readStopped .. => .debug
  | engineFailed .. => .error
  | endReached .. => .info
  | watermarkRefused .. => .error
  | changeDropped .. => .trace
  | changeRefused .. => .error
  | closedBeforeExecution _ => .debug
  | returnedWhileRunning _ => .warn
  | taskFinished .. => .debug
  | taskUnwound _ => .warn
  | errorDropped _ => .warn
  | errorKept _ => .error
  | scriptStarted .. => .debug
  | scriptStopped .. => .debug

/-- The part that speaks. -/
def component : LogEvent → Component
  | finishIgnored => .context
  | readStarted _ | readStopped .. | engineFailed .. | endReached .. => .reader
  | watermarkRefused .. | changeDropped .. | changeRefused .. => .reader
  | closedBeforeExecution _ | returnedWhileRunning _ | taskFinished .. | taskUnwound _ => .task
  | errorDropped _ | errorKept _ => .reporter
  | scriptStarted .. | scriptStopped .. => .scriptedEngine

/-- The message of an event. -/
def message : LogEvent → String
  | finishIgnored => "ignoring finish on an outer-driven run context"
  | readStarted _ => "starting log read"
  | readStopped .. => "log read stopped"
  | engineFailed _ error => "log engine failed: " ++ error.message
  | endReached .. => "log read reached high watermark"
  | watermarkRefused _ error => "sending log end watermark failed: " ++ error.message
  | changeDropped .. => "dropping change event after stop"
  | changeRefused _ error => "dispatching change event failed: " ++ error.message
  | closedBeforeExecution _ => "task closed before execution"
  | returnedWhileRunning _ => "log engine returned while the task was still running"
  | taskFinished .. => "fetch task finished"
  | taskUnwound _ => "fetch task unwound before settling"
  | errorDropped error => "dropping fatal error, another one is pending: " ++ error.message
  | errorKept error => "fatal fetch error: " ++ error.message
  | scriptStarted .. => "scripted engine started"
  | scriptStopped .. => "scripted engine stopped"

/-- The fields of an event. -/
def fields : LogEvent → List (String × String)
  | finishIgnored => []
  | readStarted range =>
    [("split", range.id.text), ("start", range.start.text), ("end", range.stop.text)]
  | readStopped split reason => [("split", split.text), ("reason", reasonText reason)]
  | engineFailed split _ => [("split", split.text)]
  | endReached split position stop =>
    [("split", split.text), ("position", position.text), ("end", stop.text)]
  | watermarkRefused split _ => [("split", split.text)]
  | changeDropped split position => [("split", split.text), ("position", position.text)]
  | changeRefused split _ => [("split", split.text)]
  | closedBeforeExecution split => [("split", split.text)]
  | returnedWhileRunning split => [("split", split.text)]
  | taskFinished split state => [("split", split.text), ("state", state.name)]
  | taskUnwound split => [("split", split.text)]
  | errorDropped _ => []
  | errorKept _ => []
  | scriptStarted source start => [("source", source), ("start", start.text)]
  | scriptStopped source reason => [("source", source), ("reason", reasonText reason)]

end LogEvent

end ChangeStream
