import ChangeStream.Reporter
import ChangeStream.Sink.Channel
import ChangeStream.Task

/-!
# Stream fetchers

A fetcher runs fetch tasks one after the other, each on a thread of its own, and queues their
records for its caller. It keeps the task that it was given last and, in its worker slot, a handle
on the thread that runs it; the slot is emptied when the outcome of the thread is collected.

The threads themselves are not in the fetcher's hands. They are listed here apart from it, in
the order in which they were started, so that what the fetcher remembers of them can be compared
with what they do.
-/

namespace ChangeStream

variable {ε ρ : Type}

/-- A thread that was started for a task. -/
structure FetchThread (ρ : Type) where
  name : String
  run : TaskRun ρ

/-- Whether a thread has come to its end. -/
def FetchThread.hasExited (thread : FetchThread ρ) : Bool := thread.run.result?.isSome

/-- A handle on a thread: its place in the list, and the split that its task reads. -/
structure WorkerHandle where
  split : SplitId
  thread : Nat
deriving DecidableEq

/-- A fetcher, its threads, and what they share. -/
structure Fetcher (ε ρ : Type) where
  source : Source
  config : FetchSettings
  /-- The lasting state of the engine and the queue of records. -/
  shared : Shared ε Channel
  reporter : ErrorSlot
  /-- All threads that were ever started. -/
  threads : List (FetchThread ρ)
  /-- The thread of the current task. -/
  current : Option Nat
  /-- The handle on the thread whose outcome has not been collected. -/
  worker : Option WorkerHandle
  /-- The records taken out so far, the latest first. -/
  received : List Record
  /-- What the threads have done, each with its place in the list, the latest first. -/
  past : List (Nat × Occurrence)

namespace Fetcher

/-- A fetcher that was given no task yet. -/
def create (engine : ε) (source : Source) (config : FetchSettings) : Fetcher ε ρ :=
  { source, config
    shared := { engine, sink := .fresh config.queueCapacity }
    reporter := .empty
    threads := []
    current := none
    worker := none
    received := []
    past := [] }

/-- The current task. -/
def currentTask (f : Fetcher ε ρ) : Option FetchTask :=
  f.current.bind fun i => f.threads[i]?.map fun thread => thread.run.task

/-- The range of the current task. -/
def currentSplit (f : Fetcher ε ρ) : Option Range :=
  f.currentTask.map FetchTask.range

/-- Whether the outcome of every thread has been collected and no record is left. -/
def isFinished (f : Fetcher ε ρ) : Bool :=
  f.worker.isNone && f.shared.sink.queue.isEmpty

/-- The outcome of a thread, if it has come to its end. -/
def outcome? (f : Fetcher ε ρ) (thread : Nat) : Option TaskResult :=
  f.threads[thread]?.bind fun thread => thread.run.result?

/-- The records taken out so far, in the order in which they were taken. -/
def taken (f : Fetcher ε ρ) : List Record := f.received.reverse

/-- What the threads have done, in the order in which they did it, each with its
place in the list. -/
def history (f : Fetcher ε ρ) : List (Nat × Occurrence) := f.past.reverse

/-- The calls of the engine, each with the name of the thread it was made on. -/
def engineCalls (f : Fetcher ε ρ) : List (String × EngineCall) :=
  f.history.filterMap fun
    | (i, .entered call _) => f.threads[i]?.map fun thread => (thread.name, call)
    | _ => none

/-- The name of a thread: the label and the split, in which no NUL may stand. -/
def threadName (label : String) (split : SplitId) : String :=
  String.ofList ((label ++ "-" ++ split.text).toList.map fun c => if c = '\x00' then '_' else c)

end Fetcher

end ChangeStream
