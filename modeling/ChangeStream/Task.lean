import ChangeStream.Settings
import ChangeStream.Execution

/-!
# Fetch tasks

A task reads one range, once. Executing it marks it as running and calls the engine; when the
engine has left the task is settled: it has failed if the engine did or a fatal error came up, it
is completed or closed if that is why the read stopped, and if nothing had stopped the read it is
completed, or closed where a close was asked for. A task whose engine broke off is not settled;
it has failed. A task that is closed before it is executed never calls the engine. Closing a
running task clears its flag, which the engine comes to see; the state is only settled when the
engine has left.
-/

namespace ChangeStream

variable {ε ρ κ : Type}

/-- A task that nobody executes at present. -/
structure FetchTask where
  range : Range
  state : TaskState
  running : Bool
deriving DecidableEq

/-- How an execution of a task comes out. -/
inductive TaskResult
  | ok
  | error (error : FetchError)
  | panicked (message : String)
deriving DecidableEq

namespace FetchTask

/-- A task for a range. -/
def create (range : Range) : FetchTask := { range, state := .created, running := false }

/-- The task as others see it. -/
def status (task : FetchTask) : TaskStatus := { state := task.state, running := task.running }

/-- The task after a close. -/
def close (task : FetchTask) : FetchTask :=
  { task with state := task.state.afterClose, running := false }

/-- What happens when the task is to be executed. -/
def entry (task : FetchTask) : Entry := task.state.entry task.range.id

/-- The read of a task that has just been marked as running. -/
def reading (task : FetchTask) (pollInterval : Duration) : Reading :=
  { range := task.range
    run :=
      .fresh (if task.range.isBounded then .completionDriven else .outerDriven) true pollInterval
    task := some .running }

end FetchTask

/-- The state that a task is settled in, given how the engine left, why the read stopped and the
state so far. -/
def settledState (ending : Ending) (reason : Option StopReason) (state : TaskState) : TaskState :=
  match ending, reason with
  | .failed _, _ => .failed
  | _, some .failed => .failed
  | _, some .completed => .completed
  | _, some .closed => .closed
  | _, none => if state = .closing then .closed else .completed

namespace Reading

/-- The state of the task that owns the read. A read without a task counts as running. -/
def taskState (reading : Reading) : TaskState := reading.task.getD .running

/-- The task of the read, as it is while the engine is at work. -/
def asTask (reading : Reading) : FetchTask :=
  { range := reading.range, state := reading.taskState, running := reading.run.running }

/-- The task after it has been settled by an engine that came back, and what is told to the log. -/
def settle (reading : Reading) (ending : Ending) : FetchTask × Trace :=
  let reason := reading.run.stopReason
  let state := settledState ending reason reading.taskState
  let warning : Trace :=
    match ending, reason with
    | .returned, none => [.logged (.returnedWhileRunning reading.range.id)]
    | _, _ => []
  ({ range := reading.range, state, running := false }, warning)

end Reading

/-- The task after the execution has been left, however it was: one that has not been
settled has failed. -/
def FetchTask.release (task : FetchTask) : FetchTask × Trace :=
  match task.state with
  | .running | .closing =>
    ({ task with state := .failed, running := false }, [.logged (.taskUnwound task.range.id)])
  | .created | .completed | .closed | .failed => ({ task with running := false }, [])

/-- A task being executed. -/
inductive TaskRun (ρ : Type)
  | starting (task : FetchTask)
  /-- The engine has been called. -/
  | executing (x : Execution ρ)
  /-- The engine has come back and the task is settled, but not yet released. -/
  | settled (task : FetchTask) (result : TaskResult)
  | exited (task : FetchTask) (result : TaskResult)

namespace TaskRun

/-- The task as it is at the moment. -/
def task : TaskRun ρ → FetchTask
  | starting task => task
  | executing x => x.reading.asTask
  | settled task _ => task
  | exited task _ => task

/-- The result, once it is over. -/
def result? : TaskRun ρ → Option TaskResult
  | exited _ result => some result
  | starting _ | executing _ | settled .. => none

/-- The run after the task has been closed by another party. -/
def close : TaskRun ρ → TaskRun ρ
  | starting task => .starting task.close
  | executing x => .executing { x with reading := x.reading.close }
  | settled task result => .settled task.close result
  | exited task result => .exited task.close result

/-- The run after the engine has left. An engine that broke off leaves its task unsettled. -/
def leave (reading : Reading) : Ending → TaskRun ρ × Trace
  | .panicked message =>
    let (task, trace) := reading.asTask.release
    (.exited task (.panicked message), trace)
  | .failed error =>
    let (task, trace) := reading.settle (.failed error)
    (.settled task (.error (.engine error)), trace)
  | .returned =>
    let (task, trace) := reading.settle .returned
    (.settled task .ok, trace)

/-- One step. -/
def step (engine : LogEngine ε ρ) (outlet : Outlet κ) (source : Source) (pollInterval : Duration)
    (run : TaskRun ρ) (shared : Shared ε κ) : TaskRun ρ × Shared ε κ × Trace :=
  match run with
  | starting task =>
    match task.entry with
    | .enters =>
      let (x, shared, trace) := Execution.start engine source (task.reading pollInterval) shared
      (.executing x, shared, trace)
    | .closedBefore => (.exited task .ok, shared, [.logged (.closedBeforeExecution task.range.id)])
    | .refused error => (.exited task (.error error), shared, [])
  | executing x =>
    match x.ending with
    | some ending =>
      let (run, trace) := leave x.reading ending
      (run, shared, trace)
    | none =>
      let (x, shared, trace) := x.step engine outlet shared
      (.executing x, shared, trace)
  | settled task result =>
    let (released, trace) := task.release
    (.exited released result, shared, trace ++ [.logged (.taskFinished task.range.id task.state)])
  | exited task result => (.exited task result, shared, [])

/-- Whether the next step changes nothing. -/
def isAtRest (engine : LogEngine ε ρ) (outlet : Outlet κ) (run : TaskRun ρ)
    (shared : Shared ε κ) : Bool :=
  match run with
  | starting _ | settled .. => false
  | executing x => x.ending.isNone && x.isWaiting engine outlet shared
  | exited .. => true

/-- Steps until nothing changes any more, at most so many. -/
def proceed (engine : LogEngine ε ρ) (outlet : Outlet κ) (source : Source)
    (pollInterval : Duration) :
    Nat → TaskRun ρ → Shared ε κ → TaskRun ρ × Shared ε κ × Trace
  | 0, run, shared => (run, shared, [])
  | steps + 1, run, shared =>
    if run.isAtRest engine outlet shared then (run, shared, [])
    else
      let (run, shared, trace) := run.step engine outlet source pollInterval shared
      let (run, shared, more) := proceed engine outlet source pollInterval steps run shared
      (run, shared, trace ++ more)

end TaskRun

end ChangeStream
