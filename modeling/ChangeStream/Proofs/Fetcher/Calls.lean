import ChangeStream.Proofs.Fetcher.Flow

/-!
# What the calls of a fetcher can do

The forms of each call: what it returns, and what becomes of the fetcher. A collected outcome leaves
the worker slot empty, in whichever call it is collected; apart from that a call changes the slot
only where it starts a thread, and a close that runs beyond the clock loses the handle.
-/

namespace ChangeStream.Fetcher

variable {ε ρ : Type}

section Reap

variable (f : Fetcher ε ρ)

/-- The failure of a thread that has come to its end, if its outcome has not been collected. -/
def uncollected : Option FetchError :=
  f.worker.bind fun worker => (f.outcome? worker.thread).bind (outcomeError worker.split)

/-- The forms of collecting an outcome. -/
inductive Reaps : Option FetchError → Fetcher ε ρ → Prop
  | vacant (vacant : f.worker = none) : Reaps none f
  | working {worker : WorkerHandle} (held : f.worker = some worker)
      (working : f.outcome? worker.thread = none) : Reaps none f
  | collected {worker : WorkerHandle} {result : TaskResult} (held : f.worker = some worker)
      (exited : f.outcome? worker.thread = some result) :
      Reaps (outcomeError worker.split result) { f with worker := none }

theorem reap_spec : f.Reaps f.reap.1 f.reap.2 := by
  unfold reap
  split
  · next vacant => exact .vacant vacant
  · next worker held =>
    split
    · next working => exact .working held working
    · next result exited => exact .collected held exited

end Reap

variable (engine : LogEngine ε ρ) (f : Fetcher ε ρ)

/-- The forms of a submission. -/
inductive Submits (task : FetchTask) (spawnFailure : Option String) :
    Except FetchError Unit → Fetcher ε ρ → Prop
  | busy {worker : WorkerHandle} (held : f.worker = some worker)
      (working : f.outcome? worker.thread = none) :
      Submits task spawnFailure (.error (.fetcherBusy worker.split)) f
  | failed {error : FetchError} {g : Fetcher ε ρ} (reaps : f.Reaps (some error) g) :
      Submits task spawnFailure (.error error) g
  | unspawned {reason : String} {g : Fetcher ε ρ} (reaps : f.Reaps none g)
      (vacant : g.worker = none)
      (refused : spawnFailure = some reason) : Submits task spawnFailure (.error (.spawn reason)) g
  | started {g : Fetcher ε ρ} (reaps : f.Reaps none g) (vacant : g.worker = none)
      (spawned : spawnFailure = none) : Submits task spawnFailure (.ok ()) (g.startThread task)

/-- Where the slot is empty there is nothing to collect. -/
theorem Reaps.none_of_vacant {f g : Fetcher ε ρ} {error : Option FetchError}
    (reaps : f.Reaps error g) (vacant : f.worker = none) : error = none ∧ g = f := by
  cases reaps with
  | vacant => exact ⟨rfl, rfl⟩
  | working held => cases vacant.symm.trans held
  | collected held => cases vacant.symm.trans held

/-- A thread that is not at work leaves the slot empty once it has been looked at. -/
theorem Reaps.vacant_of_not_busy {f g : Fetcher ε ρ} {error : Option FetchError}
    (reaps : f.Reaps error g)
    (idle : (f.worker.filter fun worker => (f.outcome? worker.thread).isNone) = none) :
    g.worker = none := by
  cases reaps with
  | vacant vacant => exact vacant
  | working held working =>
    rw [held, Option.filter_some, working] at idle
    cases idle
  | collected => rfl

theorem submit_spec (task : FetchTask) (spawnFailure : Option String) :
    f.Submits task spawnFailure (f.submit task spawnFailure).1 (f.submit task spawnFailure).2 := by
  have reaps := f.reap_spec
  unfold submit
  dsimp only
  split
  · next worker busy =>
    obtain ⟨held, working⟩ := Option.filter_eq_some_iff.mp busy
    exact .busy held (Option.isNone_iff_eq_none.mp working)
  · next idle =>
    split
    · next error g hreap =>
      rw [hreap] at reaps
      exact .failed reaps
    · next g hreap =>
      rw [hreap] at reaps
      have vacant := reaps.vacant_of_not_busy idle
      cases spawnFailure with
      | none => exact .started reaps vacant rfl
      | some reason => exact .unspawned reaps vacant rfl

/-- The forms of a poll. -/
inductive Polls : Except FetchError (List Record) → Fetcher ε ρ → Prop
  | reported {error : FetchError} (pending : f.reporter.pending = some error) :
      Polls (.error error) { f with reporter := .empty }
  | failed {error : FetchError} {g : Fetcher ε ρ} (quiet : f.reporter.pending = none)
      (reaps : f.Reaps (some error) g) : Polls (.error error) g
  | drained {g later : Fetcher ε ρ} {batch : List Record} (quiet : f.reporter.pending = none)
      (reaps : f.Reaps none g) (flow : Flow engine g batch later)
      (emptied : later.shared.sink.records = []) : Polls (.ok batch) later

theorem checkError_of_pending {error : FetchError} (pending : f.reporter.pending = some error) :
    f.checkError = (some error, { f with reporter := .empty }) := by
  simp only [checkError, ErrorSlot.take, pending]

theorem checkError_of_quiet (quiet : f.reporter.pending = none) : f.checkError = f.reap := by
  have same : { f with reporter := .empty } = f :=
    congrArg (fun slot => { f with reporter := ⟨slot⟩ }) quiet.symm
  simp only [checkError, ErrorSlot.take, quiet, same]

theorem poll_spec (pauses : List Pause) :
    f.Polls engine (f.poll engine pauses).1 (f.poll engine pauses).2 := by
  have reaps := f.reap_spec
  unfold poll
  cases hpending : f.reporter.pending with
  | some error =>
    rw [checkError_of_pending f hpending]
    exact .reported hpending
  | none =>
    rw [checkError_of_quiet f hpending]
    split
    · next error g hreap =>
      rw [hreap] at reaps
      exact .failed hpending reaps
    · next g hreap =>
      rw [hreap] at reaps
      have flow := flow_awaitRecord engine pauses g
      split
      · next later hawait =>
        rw [hawait] at flow
        exact .drained hpending reaps flow (awaitRecord_records engine hawait)
      · next record rest later hawait =>
        rw [hawait] at flow
        exact .drained hpending reaps (flow.append (flow_takeAll engine rest later))
          (takeAll_records engine rest later)

/-- The forms of what a close does when no thread is left, with the records that it discards. -/
inductive Ends : Except FetchError Unit → List Record → Fetcher ε ρ → Prop
  | reported {error : FetchError} {records : List Record} {g : Fetcher ε ρ}
      (flow : Flow engine f records g)
      (pending : g.reporter.pending = some error) (emptied : g.shared.sink.records = []) :
      Ends (.error error) records { g with reporter := .empty }
  | quiet {records : List Record} {g : Fetcher ε ρ} (flow : Flow engine f records g)
      (quiet : g.reporter.pending = none) (emptied : g.shared.sink.records = []) :
        Ends (.ok ()) records g

theorem afterExit_spec (pauses : List Pause) :
    ∃ result records later, f.Ends engine result records later ∧
      f.afterExit engine pauses = (.returned result, later) := by
  have flow := flow_takeAll engine pauses f
  have emptied := takeAll_records engine pauses f
  unfold afterExit
  generalize takeAll engine pauses f = drained at flow emptied
  obtain ⟨records, g⟩ := drained
  cases hpending : g.reporter.pending with
  | some error =>
    exact ⟨_, records, _, .reported flow hpending emptied, by simp only [ErrorSlot.take, hpending]⟩
  | none =>
    have same : { g with reporter := .empty } = g :=
      congrArg (fun slot => { g with reporter := ⟨slot⟩ }) hpending.symm
    refine ⟨_, records, _, .quiet flow hpending emptied, ?_⟩
    simp only [ErrorSlot.take, hpending, same]

/-- Whether the moment at which a close would give up is beyond the clock. -/
def BeyondClock (now timeout : Duration) : Prop :=
  clockLimit ≤ now.seconds + timeout.seconds + (now.nanos + timeout.nanos) / nanosPerSecond

/-- The forms of a close, with the records that it discards. -/
inductive Closes (now timeout : Duration) : CloseOutcome → List Record → Fetcher ε ρ → Prop
  | idle (idle : f.current = none) : Closes now timeout (.returned (.ok ())) [] f
  | vacant {result : Except FetchError Unit} {records : List Record} {later : Fetcher ε ρ}
      (vacant : f.worker = none) (ends : f.closeTask.Ends engine result records later) :
      Closes now timeout (.returned result) records later
  | brokenOff {worker : WorkerHandle} (held : f.worker = some worker)
      (beyond : BeyondClock now timeout) :
      Closes now timeout .clockOverflow [] { f.closeTask with worker := none }
  | timedOut {worker : WorkerHandle} {records : List Record} {g : Fetcher ε ρ}
      (held : f.worker = some worker) (inTime : ¬BeyondClock now timeout)
      (working : f.closeTask.outcome? worker.thread = none)
      (flow : Flow engine { f.closeTask with worker := none } records g)
      (unfinished : g.outcome? worker.thread = none) :
      Closes now timeout (.returned (.ok ())) records { g with worker := some worker }
  | failed {worker : WorkerHandle} {result : TaskResult} {error : FetchError}
      {records : List Record}
      {later : Fetcher ε ρ} (held : f.worker = some worker) (inTime : ¬BeyondClock now timeout)
      (flow : Flow engine { f.closeTask with worker := none } records later)
      (exited : later.outcome? worker.thread = some result)
      (failure : outcomeError worker.split result = some error) :
      Closes now timeout (.returned (.error error)) records later
  | joined {worker : WorkerHandle} {outcome : TaskResult} {result : Except FetchError Unit}
      {records more : List Record} {g later : Fetcher ε ρ} (held : f.worker = some worker)
      (inTime : ¬BeyondClock now timeout)
      (flow : Flow engine { f.closeTask with worker := none } records g)
      (exited : g.outcome? worker.thread = some outcome)
      (fine : outcomeError worker.split outcome = none) (ends : g.Ends engine result more later) :
      Closes now timeout (.returned result) (records ++ more) later

/-- All that a close has done when it breaks off. -/
theorem Closes.eq_of_brokenOff {engine : LogEngine ε ρ} {f g : Fetcher ε ρ}
    {now timeout : Duration} {outcome : CloseOutcome} {records : List Record}
    (closes : f.Closes engine now timeout outcome records g) (broken : outcome = .clockOverflow) :
    g = { f.closeTask with worker := none } := by
  subst broken
  cases closes with
  | brokenOff => rfl

@[simp] theorem closeTask_worker : f.closeTask.worker = f.worker := by
  unfold closeTask
  split <;> rfl

theorem close_spec (now timeout : Duration) (pauses : List Pause) :
    ∃ records, f.Closes engine now timeout (f.close engine now timeout pauses).1 records
      (f.close engine now timeout pauses).2 := by
  unfold close
  split
  · next idle => exact ⟨[], .idle idle⟩
  · dsimp only
    split
    · next vacant =>
      rw [closeTask_worker] at vacant
      obtain ⟨result, records, later, ends, hafter⟩ := f.closeTask.afterExit_spec engine pauses
      rw [hafter]
      exact ⟨records, .vacant vacant ends⟩
    · next worker held =>
      rw [closeTask_worker] at held
      split
      · next beyond => exact ⟨[], .brokenOff held beyond⟩
      · next inTime =>
        obtain ⟨records, g, flow, ⟨result, rest, exited, hawait⟩ | ⟨working, unfinished, hawait⟩⟩ :=
          flow_awaitExit engine worker pauses { f.closeTask with worker := none }
        · rw [hawait]
          dsimp only
          split
          · next error failure => exact ⟨records, .failed held inTime flow exited failure⟩
          · next fine =>
            obtain ⟨outcome, more, later, ends, hafter⟩ := g.afterExit_spec engine rest
            rw [hafter]
            exact ⟨records ++ more, .joined held inTime flow exited fine ends⟩
        · rw [hawait]
          exact ⟨records, .timedOut held inTime working flow unfinished⟩

end ChangeStream.Fetcher
