import ChangeStream.Fetcher.Basic

/-!
# What the threads of a fetcher do

A thread makes one step at a time. While a call of the fetcher waits, threads go on; how far they
come is not for the fetcher to say. So a pause is described by the list of the threads that make a
step in it, in order.
-/

namespace ChangeStream.Fetcher

variable {ε ρ : Type}

/-- What the threads do during a pause: which of them makes a step, one after the other. -/
abbrev Pause := List Nat

/-- The fetcher after some occurrences on a thread: errors that are reported go to the slot. -/
def record (f : Fetcher ε ρ) (thread : Nat) (trace : Trace) : Fetcher ε ρ :=
  { f with
    reporter := trace.reports.foldl (fun slot error => (slot.report error).2) f.reporter
    past := (trace.map (thread, ·)).reverse ++ f.past }

@[simp] theorem history_record (f : Fetcher ε ρ) (thread : Nat) (trace : Trace) :
    (f.record thread trace).history = f.history ++ trace.map (thread, ·) := by
  simp [history, record]

/-- One step of a thread. -/
def stepThread (engine : LogEngine ε ρ) (f : Fetcher ε ρ) (i : Nat) : Fetcher ε ρ :=
  match f.threads[i]? with
  | none => f
  | some thread =>
    let (run, shared, trace) :=
      thread.run.step engine Channel.outlet f.source f.config.pollInterval f.shared
    { f with shared, threads := f.threads.set i { thread with run } }.record i trace

/-- The steps of a pause. -/
def during (engine : LogEngine ε ρ) (f : Fetcher ε ρ) (pause : Pause) : Fetcher ε ρ :=
  pause.foldl (stepThread engine) f

/-- Whether the next step of a thread changes nothing. -/
def isAtRest (engine : LogEngine ε ρ) (f : Fetcher ε ρ) (i : Nat) : Bool :=
  match f.threads[i]? with
  | none => true
  | some thread => thread.run.isAtRest engine Channel.outlet f.shared

/-- Steps of a thread until it is at rest, at most so many. -/
def settle (engine : LogEngine ε ρ) (i : Nat) : Nat → Fetcher ε ρ → Fetcher ε ρ
  | 0, f => f
  | steps + 1, f => if f.isAtRest engine i then f else settle engine i steps (f.stepThread engine i)

/-- A pause in which a thread makes steps until it is at rest, at most so many. -/
def restPause (engine : LogEngine ε ρ) (i : Nat) : Nat → Fetcher ε ρ → Pause
  | 0, _ => []
  | steps + 1, f =>
    if f.isAtRest engine i then [] else i :: restPause engine i steps (f.stepThread engine i)

/-- The place of the first thread, from a place on, that has a record for the queue,
and the record. -/
def firstOffer (place : Nat) : List (FetchThread ρ) → Option (Nat × Execution ρ × Record)
  | [] => none
  | thread :: rest =>
    match thread.run with
    | .executing x =>
      match x.offered with
      | some record => some (place, x, record)
      | none => firstOffer (place + 1) rest
    | _ => firstOffer (place + 1) rest

/-- Takes a record directly from a thread that has one for a queue without places. -/
def handOver (f : Fetcher ε ρ) : Option Record × Fetcher ε ρ :=
  match firstOffer 0 f.threads with
  | none => (none, f)
  | some (i, x, record) =>
    let (x, trace) := x.answer record .accepted
    let threads := f.threads.modify i fun thread => { thread with run := .executing x }
    (some record, { f with threads, received := record :: f.received }.record i trace)

/-- Takes the first record, if there is one. -/
def receive (f : Fetcher ε ρ) : Option Record × Fetcher ε ρ :=
  match f.shared.sink.receive with
  | (some record, queue) =>
    (some record,
      { f with shared := { f.shared with sink := queue }, received := record :: f.received })
  | (none, _) => if f.config.queueCapacity = some 0 then f.handOver else (none, f)

end ChangeStream.Fetcher
