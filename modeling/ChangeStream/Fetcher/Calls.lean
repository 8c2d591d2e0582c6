import ChangeStream.Fetcher.Progress

/-!
# The calls of a fetcher

A caller submits tasks, polls for records, and closes the current task. A submission is refused
while the thread of the task before still runs. A failure of a thread comes out once: with the first
poll or submission that finds the thread at its end, or with the close that waits for it. A close
that has waited long enough leaves the thread alone; records that are still queued are discarded.
-/

namespace ChangeStream.Fetcher

variable {ε ρ : Type}

/-- The error that the outcome of a thread is. -/
def outcomeError (split : SplitId) : TaskResult → Option FetchError
  | .ok => none
  | .error error => some error
  | .panicked _ => some (.taskPanicked split)

/-- Collects the outcome of the worker if its thread has come to its end. -/
def reap (f : Fetcher ε ρ) : Option FetchError × Fetcher ε ρ :=
  match f.worker with
  | none => (none, f)
  | some worker =>
    match f.outcome? worker.thread with
    | none => (none, f)
    | some result => (outcomeError worker.split result, { f with worker := none })

/-- Starts a thread for a task. -/
def startThread (f : Fetcher ε ρ) (task : FetchTask) : Fetcher ε ρ :=
  let split := task.range.id
  let thread : FetchThread ρ :=
    { name := threadName f.config.threadLabel split, run := .starting task }
  { f with
    threads := f.threads ++ [thread]
    current := some f.threads.length
    worker := some { split, thread := f.threads.length } }

/-- Submits a task. `spawnFailure` is why no thread could be started, if none could. -/
def submit (f : Fetcher ε ρ) (task : FetchTask) (spawnFailure : Option String) :
    Except FetchError Unit × Fetcher ε ρ :=
  let busy := f.worker.filter fun worker => (f.outcome? worker.thread).isNone
  match busy with
  | some worker => (.error (.fetcherBusy worker.split), f)
  | none =>
    match f.reap with
    | (some error, f) => (.error error, f)
    | (none, f) =>
      match spawnFailure with
      | some reason => (.error (.spawn reason), f)
      | none => (.ok (), f.startThread task)

/-- The error that is due: a reported one first, or else the outcome of the worker. -/
def checkError (f : Fetcher ε ρ) : Option FetchError × Fetcher ε ρ :=
  match f.reporter.take with
  | (some error, reporter) => (some error, { f with reporter })
  | (none, reporter) => { f with reporter }.reap

/-- Waits for a first record, for as many pauses as there are. -/
def awaitRecord (engine : LogEngine ε ρ) : List Pause → Fetcher ε ρ →
    Option Record × List Pause × Fetcher ε ρ
  | [], f =>
    let (record, f) := f.receive
    (record, [], f)
  | pause :: pauses, f =>
    match f.receive with
    | (some record, f) => (some record, pause :: pauses, f)
    | (none, f) => awaitRecord engine pauses (f.during engine pause)

/-- Takes records one by one until there is none, at most so many. -/
def takeQueued : Nat → Fetcher ε ρ → List Record × Fetcher ε ρ
  | 0, f => ([], f)
  | count + 1, f =>
    match f.receive with
    | (none, f) => ([], f)
    | (some record, f) =>
      let (records, f) := takeQueued count f
      (record :: records, f)

/-- How many records can be taken at most before a thread makes a step. -/
def available (f : Fetcher ε ρ) : Nat := f.shared.sink.queue.size + f.threads.length

/-- Takes records one by one until there is none. Threads may go on for a pause before each of the
first attempts. -/
def takeAll (engine : LogEngine ε ρ) : List Pause → Fetcher ε ρ → List Record × Fetcher ε ρ
  | [], f => takeQueued f.available f
  | pause :: pauses, f =>
    match (f.during engine pause).receive with
    | (none, f) => ([], f)
    | (some record, f) =>
      let (records, f) := takeAll engine pauses f
      (record :: records, f)

/-- Polls for records. The pauses are what the threads do while the call waits and takes. -/
def poll (engine : LogEngine ε ρ) (f : Fetcher ε ρ) (pauses : List Pause) :
    Except FetchError (List Record) × Fetcher ε ρ :=
  match f.checkError with
  | (some error, f) => (.error error, f)
  | (none, f) =>
    match awaitRecord engine pauses f with
    | (none, _, f) => (.ok [], f)
    | (some record, pauses, f) =>
      let (records, f) := takeAll engine pauses f
      (.ok (record :: records), f)

/-- Takes the records that are there and throws them away. -/
def discard (f : Fetcher ε ρ) : Fetcher ε ρ := (takeQueued f.available f).2

/-- Closes the current task. -/
def closeTask (f : Fetcher ε ρ) : Fetcher ε ρ :=
  match f.current with
  | none => f
  | some i =>
    { f with threads := f.threads.modify i fun thread => { thread with run := thread.run.close } }

/-- How a close comes out. -/
inductive CloseOutcome
  /-- It returns. -/
  | returned (result : Except FetchError Unit)
  /-- The moment at which it would give up is beyond the clock, and it breaks off. -/
  | clockOverflow

/-- Waits for the thread of a handle that was taken out of the slot, for as many pauses as
there are, then puts the handle back. The outcome of the thread, if it came to its end, and
the pauses left. -/
def awaitExit (engine : LogEngine ε ρ) (worker : WorkerHandle) : List Pause → Fetcher ε ρ →
    Option TaskResult × List Pause × Fetcher ε ρ
  | pauses, f =>
    match f.outcome? worker.thread with
    | some result => (some result, pauses, f)
    | none =>
      let f := f.discard
      match pauses with
      | [] => (none, [], { f with worker := some worker })
      | pause :: pauses => awaitExit engine worker pauses (f.during engine pause)

/-- What a close does when its thread is gone: it discards what is queued and returns the error that
was reported, if any. -/
def afterExit (engine : LogEngine ε ρ) (pauses : List Pause) (f : Fetcher ε ρ) :
    CloseOutcome × Fetcher ε ρ :=
  let f := (takeAll engine pauses f).2
  match f.reporter.take with
  | (some error, reporter) => (.returned (.error error), { f with reporter })
  | (none, reporter) => (.returned (.ok ()), { f with reporter })

/-- The first second that the clock does not reach. -/
def clockLimit : Nat := Nat.pow 2 63

/-- Closes the current task and waits for its thread. `now` is the time of the clock, and the pauses
are what the threads do while the call waits and discards; after the last of them the timeout is
over. A close that breaks off has lost the handle. -/
def close (engine : LogEngine ε ρ) (f : Fetcher ε ρ) (now timeout : Duration)
    (pauses : List Pause) : CloseOutcome × Fetcher ε ρ :=
  match f.current with
  | none => (.returned (.ok ()), f)
  | some _ =>
    let f := f.closeTask
    match f.worker with
    | none => f.afterExit engine pauses
    | some worker =>
      let f := { f with worker := none }
      let seconds := now.seconds + timeout.seconds + (now.nanos + timeout.nanos) / nanosPerSecond
      if clockLimit ≤ seconds then (.clockOverflow, f)
      else
        match awaitExit engine worker pauses f with
        | (none, _, f) => (.returned (.ok ()), f)
        | (some result, pauses, f) =>
          match outcomeError worker.split result with
          | some error => (.returned (.error error), f)
          | none => f.afterExit engine pauses

/-- The threads after the fetcher is gone: the current task is closed and nobody receives
records any more. -/
def drop (f : Fetcher ε ρ) : Fetcher ε ρ :=
  let f := f.closeTask
  { f with shared := { f.shared with sink := f.shared.sink.disconnect } }

end ChangeStream.Fetcher
