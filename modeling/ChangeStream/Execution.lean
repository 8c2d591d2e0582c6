import ChangeStream.Engine.Basic

/-!
# Executions

An execution is an engine at work on a read, together with the sink. It goes on in small steps, so
that what others do may come between any two of them: asking the engine for a move is one step, and
handing a record to the sink is another.
-/

namespace ChangeStream

variable {ε ρ κ : Type}

/-- An engine at work on a read. -/
structure Execution (ρ : Type) where
  reading : Reading
  /-- A record that the sink has not answered yet. -/
  offered : Option Record
  progress : ρ
  ending : Option Ending

/-- What executions share and what outlives them: the lasting state of the engine and the
state of the sink. -/
structure Shared (ε κ : Type) where
  engine : ε
  sink : κ

namespace Execution

/-- Calls the engine for a read. -/
def start (engine : LogEngine ε ρ) (source : Source) (reading : Reading) (shared : Shared ε κ) :
    Execution ρ × Shared ε κ × Trace :=
  let call : EngineCall :=
    { kind := reading.run.kind, pollInterval := reading.run.pollInterval, source,
      start := reading.range.start }
  let (progress, state) := engine.start call shared.engine
  ({ reading, offered := none, progress, ending := none }, { shared with engine := state },
    [.logged (.readStarted reading.range), .entered call reading.status])

/-- The execution after a record has been answered for. -/
def answer (x : Execution ρ) (record : Record) (reply : Reply) : Execution ρ × Trace :=
  let (reading, trace) := x.reading.conclude record reply
  ({ x with reading, offered := none }, trace)

/-- What is told to the log as the engine leaves. -/
def endingLog (reading : Reading) : Ending → Trace
  | .returned => [.logged (.readStopped reading.range.id reading.run.stopReason)]
  | .failed error => [.logged (.engineFailed reading.range.id error)]
  | .panicked _ => []

/-- The execution after a move of the engine. -/
def perform (x : Execution ρ) : Move → Execution ρ × Trace
  | .signal signal =>
    let (offered, logs) := x.reading.offer? signal
    ({ x with offered }, .ofLogs logs)
  | .idle => (x, [])
  | .wait => (x, [])
  | .finish =>
    let (effective, reading, logs) := x.reading.finish
    ({ x with reading }, logs ++ [.finishCalled effective])
  | .fail =>
    let (effective, reading) := x.reading.fail
    ({ x with reading }, [.failCalled effective])
  | .close => ({ x with reading := x.reading.close }, [])
  | .observe => (x, [.observed x.reading.status])
  | .takeRound round => (x, [.roundTaken round x.reading.status])
  | .executeAgain => (x, [.executedAgain (x.reading.task.map (TaskState.entry x.reading.range.id))])
  | .log event => (x, [.logged event])
  | .leave ending => ({ x with ending := some ending }, endingLog x.reading ending)

/-- One step: the sink is asked about an offered record, or else the engine for a move. -/
def step (engine : LogEngine ε ρ) (outlet : Outlet κ) (x : Execution ρ) (shared : Shared ε κ) :
    Execution ρ × Shared ε κ × Trace :=
  match x.ending, x.offered with
  | some _, _ => (x, shared, [])
  | none, some record =>
    match outlet shared.sink record with
    | none => (x, shared, [])
    | some (reply, state) =>
      let (x, trace) := x.answer record reply
      (x, { shared with sink := state }, trace)
  | none, none =>
    let (move, progress, state) := engine.next x.reading.run.stopReason x.progress shared.engine
    let (x, trace) := { x with progress }.perform move
    (x, { shared with engine := state }, trace)

/-- Whether the next step changes nothing: the sink has no room, or the engine waits. -/
def isWaiting (engine : LogEngine ε ρ) (outlet : Outlet κ) (x : Execution ρ)
    (shared : Shared ε κ) : Bool :=
  match x.offered with
  | some record => (outlet shared.sink record).isNone
  | none =>
    match (engine.next x.reading.run.stopReason x.progress shared.engine).1 with
    | .wait => true
    | _ => false

/-- Steps until the engine has left, at most so many. -/
def run (engine : LogEngine ε ρ) (outlet : Outlet κ) :
    Nat → Execution ρ → Shared ε κ → Execution ρ × Shared ε κ × Trace
  | 0, x, shared => (x, shared, [])
  | steps + 1, x, shared =>
    if x.ending.isSome then (x, shared, [])
    else
      let (x, shared, trace) := step engine outlet x shared
      let (x, shared, more) := run engine outlet steps x shared
      (x, shared, trace ++ more)

end Execution

end ChangeStream
