import ChangeStream.Sink.Basic
import ChangeStream.Trace

/-!
# Reads of a range

While a range is read, the engine signals changes and the positions it comes to. A change is handed
to the sink as long as the read runs. A position is compared with the end of a bounded range; the
first one at or after it makes the read hand the END watermark to the sink, and when the sink has
taken that, the read is completed. If the sink refuses a record the error is reported once and the
read has failed.

A signal has two halves: `offer?` decides what is handed to the sink, `conclude` draws the
consequences of its answer. The read may be closed between the two.
-/

namespace ChangeStream

/-- What an engine tells the read. -/
inductive Signal
  /-- A change was decoded. -/
  | change (event : Change)
  /-- The engine has come to a position. -/
  | advance (position : Position)
deriving DecidableEq

/-- A read in progress. -/
structure Reading where
  range : Range
  run : RunContext
  /-- The state of the task that owns the read. -/
  task : Option TaskState
deriving DecidableEq

namespace Reading

/-- The read as its engine sees it. -/
def status (reading : Reading) : ReadStatus :=
  { stopReason := reading.run.stopReason
    task := reading.task.map fun state => { state, running := reading.run.running } }

/-- The read after a close by another party. -/
def close (reading : Reading) : Reading :=
  { reading with run := reading.run.withFlag false, task := reading.task.map TaskState.afterClose }

/-- The read after its context was told to finish, whether that counted, and what is
told to the log. -/
def finish (reading : Reading) : Bool × Reading × Trace :=
  let (effective, run) := reading.run.finish
  (effective, { reading with run }, .ofLogs reading.run.finishLog)

/-- The read after its context was told to fail, and whether that counted. -/
def fail (reading : Reading) : Bool × Reading :=
  let (effective, run) := reading.run.fail
  (effective, { reading with run })

/-- The record that a signal makes the read hand to the sink, and what is told to the log. -/
def offer? (reading : Reading) : Signal → Option Record × List LogEvent
  | .change event =>
    if reading.run.isRunning then (some (.change reading.range.id event), [])
    else (none, [.changeDropped reading.range.id event.position])
  | .advance position =>
    match reading.range.stop.position? with
    | none => (none, [])
    | some stop =>
      if reading.run.isRunning && position.hasReached stop then
        (some (.watermark ⟨reading.range.id, position, .ending⟩),
          [.endReached reading.range.id position stop])
      else (none, [])

/-- What kind of event a record is. -/
def eventKind : Record → EventKind
  | .change .. => .change
  | .watermark _ => .watermark

/-- What is told to the log about a refusal. -/
def refusalLog (split : SplitId) (error : DispatchError) : Record → LogEvent
  | .change .. => .changeRefused split error
  | .watermark _ => .watermarkRefused split error

/-- The read after the sink has answered, and what can be seen of it. -/
def conclude (reading : Reading) (record : Record) (reply : Reply) : Reading × Trace :=
  let reading := if reply.closes then reading.close else reading
  let split := reading.range.id
  match reply.refusal with
  | some error =>
    (reading.fail.2,
      [.dispatched record reply.refusal, .logged (refusalLog split error record),
        .reported (.dispatch split (eventKind record) error)])
  | none =>
    match record with
    | .change .. => (reading, [.dispatched record none])
    | .watermark _ =>
      let (_, reading, logs) := reading.finish
      (reading, .dispatched record none :: logs)

/-- The read after a signal, the sink having answered. -/
def handle {κ : Type} (sink : Sink κ) (reading : Reading) (state : κ) (signal : Signal) :
    Reading × κ × Trace :=
  let (offered, logs) := reading.offer? signal
  match offered with
  | none => (reading, state, .ofLogs logs)
  | some record =>
    let (reply, state) := sink state record
    let (reading, trace) := reading.conclude record reply
    (reading, state, .ofLogs logs ++ trace)

/-! ## Reads without an engine -/

/-- Something that is done to a read. -/
inductive Call
  /-- The engine signals. -/
  | signal (signal : Signal)
  /-- The owner sets or clears the flag. -/
  | setRunning (running : Bool)
  /-- The context is told to finish. -/
  | finish
  /-- The context is told to fail. -/
  | fail
deriving DecidableEq

/-- The read after a call. -/
def perform {κ : Type} (sink : Sink κ) (reading : Reading) (state : κ) : Call → Reading × κ × Trace
  | .signal signal => reading.handle sink state signal
  | .setRunning running => ({ reading with run := reading.run.withFlag running }, state, [])
  | .finish =>
    let (effective, reading, logs) := reading.finish
    (reading, state, logs ++ [.finishCalled effective])
  | .fail =>
    let (effective, reading) := reading.fail
    (reading, state, [.failCalled effective])

/-- The read after a sequence of calls. -/
def performAll {κ : Type} (sink : Sink κ) (reading : Reading) (state : κ) :
    List Call → Reading × κ × Trace
  | [] => (reading, state, [])
  | call :: calls =>
    let (reading, state, trace) := reading.perform sink state call
    let (reading, state, more) := performAll sink reading state calls
    (reading, state, trace ++ more)

end Reading

end ChangeStream
