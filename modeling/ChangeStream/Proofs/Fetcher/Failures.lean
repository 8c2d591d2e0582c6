import ChangeStream.Engine.Played
import ChangeStream.Proofs.Fetcher.Session
import ChangeStream.Sample

/-!
# Every failure comes out once

The failures of the threads come out one after the other, each with one call: the first poll or
submission after the thread has come to its end, or the close that waits for it. Nothing comes out
by way of the slot for reported errors, which stays empty. A fetcher is not finished before all
failures have come out, but for those of threads whose handles a close has lost: they never do.
-/

namespace ChangeStream

variable {ε ρ : Type}

namespace Fetcher

variable {f g : Fetcher ε ρ} {error : FetchError} {lost : List Nat} {surfaced : List FetchError}

/-! ## The failure that is due -/

theorem uncollected_eq_some (due : f.uncollected = some error) :
    ∃ worker result, f.worker = some worker ∧ f.outcome? worker.thread = some result ∧
      outcomeError worker.split result = some error := by
  obtain ⟨worker, held, hdue⟩ := Option.bind_eq_some_iff.mp due
  obtain ⟨result, exited, failure⟩ := Option.bind_eq_some_iff.mp hdue
  exact ⟨worker, result, held, exited, failure⟩

theorem reap_of_uncollected (due : f.uncollected = some error) :
    f.reap = (some error, { f with worker := none }) := by
  obtain ⟨worker, result, held, exited, failure⟩ := uncollected_eq_some due
  simp only [reap, held, exited, failure]

theorem submit_of_uncollected (due : f.uncollected = some error) (task : FetchTask)
    (spawnFailure : Option String) :
    f.submit task spawnFailure = (.error error, { f with worker := none }) := by
  obtain ⟨worker, result, held, exited, failure⟩ := uncollected_eq_some due
  have idle : (f.worker.filter fun worker => (f.outcome? worker.thread).isNone) = none := by
    rw [held, Option.filter_some, exited]
    rfl
  simp only [submit, idle, reap_of_uncollected due]

theorem poll_of_uncollected (engine : LogEngine ε ρ) (quiet : f.reporter.pending = none)
    (due : f.uncollected = some error) (pauses : List Pause) :
    f.poll engine pauses = (.error error, { f with worker := none }) := by
  simp only [poll, checkError_of_quiet f quiet, reap_of_uncollected due]

/-- A close does not change how a thread has come out. -/
theorem closeTask_outcome? (f : Fetcher ε ρ) (i : Nat) : f.closeTask.outcome? i = f.outcome? i := by
  cases hcurrent : f.current with
  | none => simp only [closeTask, hcurrent]
  | some current =>
    simp only [closeTask, hcurrent, outcome?, List.getElem?_modify]
    cases f.threads[i]? with
    | none => rfl
    | some thread =>
      simp only [Option.bind_some]
      split
      · exact thread.run.close_result?
      · rfl

theorem awaitExit_of_exited (engine : LogEngine ε ρ) {worker : WorkerHandle} {result : TaskResult}
    (exited : f.outcome? worker.thread = some result) (pauses : List Pause) :
    awaitExit engine worker pauses f = (some result, pauses, f) := by
  unfold awaitExit
  cases pauses <;> simp only [exited]

theorem close_of_uncollected (engine : LogEngine ε ρ) (owes : f.Owes lost f.worker surfaced)
    (due : f.uncollected = some error) {now timeout : Duration}
    (inTime : ¬BeyondClock now timeout) (pauses : List Pause) :
    f.close engine now timeout pauses =
      (.returned (.error error), { f.closeTask with worker := none }) := by
  obtain ⟨worker, result, held, exited, failure⟩ := uncollected_eq_some due
  have current : f.current = some worker.thread := (owes.held held).1.current
  have held' : f.closeTask.worker = some worker := f.closeTask_worker.trans held
  have exited' : outcome? { f.closeTask with worker := none } worker.thread = some result :=
    (closeTask_outcome? f worker.thread).trans exited
  unfold BeyondClock at inTime
  simp only [close, current, held', inTime, if_false, awaitExit_of_exited engine exited' pauses,
    failure]

/-- The calls that collect an outcome, a close within the clock among them, return
the error next. -/
structure ReturnsNext (engine : LogEngine ε ρ) (f : Fetcher ε ρ) (error : FetchError) : Prop where
  poll (pauses : List Pause) : f.poll engine pauses = (.error error, { f with worker := none })
  submit (task : FetchTask) (spawnFailure : Option String) :
    f.submit task spawnFailure = (.error error, { f with worker := none })
  close (now timeout : Duration) (pauses : List Pause) : ¬BeyondClock now timeout →
    f.close engine now timeout pauses =
      (.returned (.error error), { f.closeTask with worker := none })

theorem returnsNext_of_uncollected (engine : LogEngine ε ρ) (sound : f.Sound)
    (owes : f.Owes lost f.worker surfaced) (due : f.uncollected = some error) :
    f.ReturnsNext engine error where
  poll := poll_of_uncollected engine sound.quiet due
  submit := submit_of_uncollected due
  close _ _ pauses inTime := close_of_uncollected engine owes due inTime pauses

end Fetcher

/-! ## The failures of threads -/

namespace FetchThread

variable {thread : FetchThread ρ} {told : Prop}

theorem failureOf (accountable : thread.run.Accountable told) {error : FetchError}
    (failed : thread.failure = some error) : error.FailureOf thread.run.task.range.id := by
  obtain ⟨result, exited, failure⟩ := Option.bind_eq_some_iff.mp failed
  exact (accountable.own exited).failureOf failure

/-- A task ends as failed only with a failure of its thread, unless the engine has failed it. -/
theorem failure_of_failed (accountable : thread.run.Accountable told) (untold : ¬told)
    (exited : thread.hasExited = true) (failed : thread.run.task.state = .failed) :
    ∃ error, thread.failure = some error := by
  obtain ⟨name, run⟩ := thread
  cases accountable with
  | starting | executing | settled => cases exited
  | @exited task result own blamed =>
    cases own with
    | ok => exact absurd (blamed failed rfl) untold
    | engine cause => exact ⟨_, rfl⟩
    | alreadyExecuted => exact ⟨_, rfl⟩
    | panicked message => exact ⟨_, rfl⟩

end FetchThread

namespace Session

/-- A fetcher is used by its caller, in whatever order, while its threads go on as they like. Now
and while a call waits, no dispatch is refused and the slot for reported errors is empty; no call
returns the error of a dispatch. The failures that have come out and the one that is due are the
failures of all threads but those whose handles a close has lost on breaking off, in the order of
the threads and none of them twice. The one that is due comes out with the next call that can return
it. Once the fetcher is finished, all these threads have come to their end and all their failures
have come out, that of every task that has failed among them, unless its engine told it to fail. As
long as all calls have returned, no handle is lost and these are all threads. -/
theorem failures_surface_once (engine : LogEngine ε ρ) (state : ε) (source : Source)
    (config : FetchSettings) (events : List SessionEvent) :
    let s : Session ε ρ := (start (.create state source config)).takeAll engine events
    let f := s.fetcher
    (∀ slot records later, Fetcher.Flow engine { f with worker := slot } records later →
      later.reporter = .empty ∧ later.dispatches = later.accepted) ∧
    (∀ answer ∈ s.answers, ∀ split kind cause,
      answer.error? ≠ some (.dispatch split kind cause)) ∧
    s.surfaced ++ f.uncollected.toList = f.failures s.lost ∧
    (∀ thread ∈ f.threads, ∀ error, thread.failure = some error →
      error.FailureOf thread.run.task.range.id) ∧
    (∀ error, f.uncollected = some error → f.ReturnsNext engine error) ∧
    (f.isFinished = true →
      s.surfaced = f.failures s.lost ∧
      ∀ i thread, f.threads[i]? = some thread → i ∉ s.lost → thread.hasExited = true ∧
        (thread.run.task.state = .failed → ¬f.ToldToFail i →
          ∃ error ∈ s.surfaced, thread.failure = some error)) ∧
    (s.live = true →
      s.lost = [] ∧ f.failures s.lost = f.threads.filterMap FetchThread.failure) := by
  intro s f
  have sound : s.Sound := (sound_start state source config).takeAll events
  have owes : f.Owes s.lost f.worker s.surfaced := sound.owes
  refine ⟨?_, ?_, owes.total, ?_,
    fun error => Fetcher.returnsNext_of_uncollected engine sound.fetcher owes, ?_, ?_⟩
  · intro slot records later flow
    have waiting := (sound.fetcher.withWorker slot).flow flow
    exact ⟨congrArg ErrorSlot.mk waiting.quiet, waiting.whole⟩
  · intro answer member split kind cause returned
    -- It would be the failure of a thread, and no thread fails with the error of a dispatch.
    have failure : answer.failure? = some (.dispatch split kind cause) := by
      rw [Fetcher.Answer.failure?, returned]
      rfl
    obtain ⟨other, own⟩ := sound.failureOf _ (List.mem_filterMap.mpr ⟨answer, member, failure⟩)
    cases own
  · intro thread member error failed
    obtain ⟨i, hi⟩ := List.mem_iff_getElem?.mp member
    exact FetchThread.failureOf (sound.fetcher.accountable i thread hi) failed
  · intro finished
    have vacant : f.worker = none := (Fetcher.isFinished_iff.mp finished).1
    rw [vacant] at owes
    refine ⟨owes.surfaced_eq, fun i thread present unlost => ?_⟩
    have exited : thread.hasExited = true := owes.exited present unlost
    refine ⟨exited, fun failed untold => ?_⟩
    obtain ⟨error, failure⟩ := FetchThread.failure_of_failed
      (sound.fetcher.accountable i thread present) untold exited failed
    refine ⟨error, ?_, failure⟩
    rw [owes.surfaced_eq]
    exact Fetcher.mem_failures present unlost failure
  · intro live
    rw [sound.kept live]
    exact ⟨rfl, f.failures_nil⟩

/-- A close with the longest timeout loses the handle of a thread, and the thread fails. Neither a
poll nor a close returns its error, and the fetcher is finished. -/
theorem failure_of_lost_thread_never_returned :
    let cause := EngineError.failed "ORA-01013: user requested cancel"
    let engine := playedEngine [.move .idle, .move (.leave (.failed cause))]
    let s : Session Unit (List PlayedMove) :=
      (start (.create () (.named "ORCLCDB") .standard)).takeAll engine
        ([.call (.submit (.create Sample.split) none), .step 0,
            .call (.close .zero .longest [])] ++ List.replicate 4 (.step 0) ++
          [.call (.poll []), .call (.close .zero .zero [])])
    s.fetcher.threads.map FetchThread.failure = [some (.engine cause)] ∧
      s.fetcher.threads.map (fun thread => thread.run.task.state) = [.failed] ∧
      s.answers.map Fetcher.Answer.error? = [none, none, none, none] ∧
      s.fetcher.isFinished = true := by
  decide

/-- A thread that is unwound leaves its record in the queue. The next poll returns the failure, the
one after it the record. -/
example :
    let record := Sample.insert "orders" 110
    let engine :=
      playedEngine [.move (.signal (.change record)), .move (.leave (.panicked "no log"))]
    let s : Session Unit (List PlayedMove) :=
      (start (.create () (.named "ORCLCDB") .standard)).takeAll engine
        ([.call (.submit (.create Sample.split) none)] ++ List.replicate 5 (.step 0) ++
          [.call (.poll []), .call (.poll [])])
    s.answers.map Fetcher.Answer.error? = [none, some (.taskPanicked Sample.split.id), none] ∧
      s.answers.map Fetcher.Answer.batch = [[], [], [.change Sample.split.id record]] ∧
      s.fetcher.isFinished = true := by
  decide

end Session

end ChangeStream
