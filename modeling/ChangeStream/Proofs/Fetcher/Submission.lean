import ChangeStream.Proofs.Fetcher.Failures
import ChangeStream.Proofs.Fetcher.Rest

/-!
# Submissions that come to nothing

A submission is refused at one of three points: the thread of the task before is still at work, it
has left a failure, or no thread can be started. Whichever it is, nothing is started and nothing is
replaced. The current task and the queue are left as they are; at most the worker slot is emptied,
and then the next submission is not refused for what has happened before. A thread whose handle a
close has lost is in nobody's way: a submission succeeds while it is at work.
-/

namespace ChangeStream

variable {ε ρ : Type}

namespace Fetcher

variable {engine : LogEngine ε ρ} {f g : Fetcher ε ρ} {lost : List Nat}
  {surfaced : List FetchError} {task : FetchTask} {spawnFailure : Option String}
  {result : Except FetchError Unit} {i : Nat}

/-- What a caller and the threads have before them is the same; the worker slot may have
been emptied. -/
structure Keeps (f g : Fetcher ε ρ) : Prop where
  currentTask : g.currentTask = f.currentTask
  shared : g.shared = f.shared
  threads : g.threads = f.threads
  history : g.history = f.history
  worker : g.worker = f.worker ∨ g.worker = none

theorem Keeps.engineCalls (keeps : f.Keeps g) : g.engineCalls = f.engineCalls := by
  simp only [Fetcher.engineCalls, keeps.history, keeps.threads]

theorem Reaps.keeps {error : Option FetchError} (reaps : f.Reaps error g) : f.Keeps g := by
  cases reaps with
  | vacant | working => exact ⟨rfl, rfl, rfl, rfl, .inl rfl⟩
  | collected => exact ⟨rfl, rfl, rfl, rfl, .inr rfl⟩

/-- Whatever a submission is refused for, it starts nothing. -/
theorem Submits.keeps {error : FetchError}
    (submits : f.Submits task spawnFailure (.error error) g) : f.Keeps g := by
  cases submits with
  | busy => exact ⟨rfl, rfl, rfl, rfl, .inl rfl⟩
  | failed reaps | unspawned reaps => exact reaps.keeps

/-- What is left of a fetcher whose worker slot was looked at and is empty now. -/
theorem Reaps.eq_of_vacant {error : Option FetchError} (reaps : f.Reaps error g)
    (vacant : g.worker = none) : g = { f with worker := none } := by
  cases reaps with
  | vacant | working => rw [← vacant]
  | collected => rfl

theorem Reaps.vacant_of_failure {error : FetchError} (reaps : f.Reaps (some error) g) :
    g.worker = none := by
  generalize hdue : some error = due at reaps
  cases reaps with
  | vacant | working => cases hdue
  | collected => rfl

theorem Reaps.uncollected_eq {error : FetchError} (reaps : f.Reaps (some error) g) :
    f.uncollected = some error := by
  generalize hdue : some error = due at reaps
  cases reaps with
  | vacant | working => cases hdue
  | collected held exited =>
    rw [uncollected, held, Option.bind_some, exited, Option.bind_some, ← hdue]

theorem eq_ok_of_outcomeError {split : SplitId} {result : TaskResult}
    (fine : outcomeError split result = none) : result = .ok := by
  cases result with
  | ok => rfl
  | error | panicked => cases fine

/-- A thread that leaves the slot without a failure has come to a good end. -/
theorem Reaps.outcome_ok (reaps : f.Reaps none g) (vacant : g.worker = none)
    {worker : WorkerHandle} (held : f.worker = some worker) :
    f.outcome? worker.thread = some .ok := by
  generalize hdue : none = due at reaps
  cases reaps with
  | vacant | working => cases vacant.symm.trans held
  | collected also exited =>
    obtain rfl := Option.some.inj (held.symm.trans also)
    rw [exited, eq_ok_of_outcomeError hdue.symm]

theorem Reaps.nothing_uncollected (reaps : f.Reaps none g) (vacant : g.worker = none) :
    f.uncollected = none := by
  cases held : f.worker with
  | none => rw [uncollected, held, Option.bind_none]
  | some worker =>
    rw [uncollected, held, Option.bind_some, reaps.outcome_ok vacant held]
    rfl

/-- A slot that has been emptied leaves no thread at work behind whose handle was not lost. -/
theorem Reaps.exited {error : Option FetchError} (reaps : f.Reaps error g)
    (vacant : g.worker = none) (owes : f.Owes lost f.worker surfaced) {thread : FetchThread ρ}
    (present : f.threads[i]? = some thread) (unlost : i ∉ lost) : thread.hasExited = true := by
  have later := owes.reap reaps
  rw [vacant] at later
  exact later.exited (reaps.kept.2.1 ▸ present) unlost

/-- Where the slot is empty a submission is refused only if there is no thread to be had. -/
theorem submit_of_vacant (vacant : f.worker = none) (task : FetchTask) :
    f.submit task none = (.ok (), f.startThread task) := by
  simp only [submit, reap, vacant, Option.filter_none]

/-- The thread that a submission has found at work is that of the current task. -/
theorem Holds.busy {worker : WorkerHandle} (holds : f.Holds worker)
    (working : f.outcome? worker.thread = none) :
    f.currentSplit.map Range.id = some worker.split ∧
      ∃ i thread, f.current = some i ∧ f.threads[i]? = some thread ∧ thread.hasExited = false := by
  obtain ⟨thread, present, -, outcome⟩ := holds.thread
  refine ⟨holds.currentSplit, worker.thread, thread, holds.current, present, ?_⟩
  rw [FetchThread.hasExited, ← outcome, working]
  rfl

/-! ## Steps of threads beside a submission -/

theorem stepThread_withWorker (engine : LogEngine ε ρ) (f : Fetcher ε ρ) (i : Nat)
    (slot : Option WorkerHandle) : stepThread engine { f with worker := slot } i =
      { f.stepThread engine i with worker := slot } := by
  unfold stepThread
  dsimp only
  split <;> rfl

/-- A thread that is there before makes the same step once another one was started. -/
theorem stepThread_startThread (engine : LogEngine ε ρ) (before : i < f.threads.length)
    (task : FetchTask) : (f.startThread task).stepThread engine i =
      (f.stepThread engine i).startThread task := by
  have present : f.threads[i]? = some f.threads[i] := List.getElem?_eq_getElem before
  have also : (f.startThread task).threads[i]? = some f.threads[i] :=
    (List.getElem?_append_left before).trans present
  rw [stepThread_eq present, stepThread_eq also]
  simp only [startThread, record, List.set_append_left _ _ before, List.length_set]

/-- Whether the thread in the slot, if there is one, has come to its end. -/
def Idle (f : Fetcher ε ρ) : Prop :=
  ∀ worker, f.worker = some worker → ∃ result, f.outcome? worker.thread = some result

namespace Idle

variable (idle : f.Idle)
include idle

theorem stepThread (engine : LogEngine ε ρ) (sound : f.Sound) (i : Nat) :
    (f.stepThread engine i).Idle := by
  intro worker held
  rw [stepThread_worker] at held
  refine (idle worker held).imp fun result exited => ?_
  exact (change_stepThread engine sound.connected i).outcome? exited

theorem not_busy :
    f.worker.filter (fun worker => (f.outcome? worker.thread).isNone) = none := by
  cases held : f.worker with
  | none => rfl
  | some worker =>
    obtain ⟨result, exited⟩ := idle worker held
    rw [Option.filter_some, exited]
    rfl

theorem submit_of_failure {error : FetchError} (reaped : f.reap = (some error, g)) :
    f.submit task spawnFailure = (.error error, g) := by
  simp only [submit, idle.not_busy, reaped]

theorem submit_unspawned {reason : String} (reaped : f.reap = (none, g)) :
    f.submit task (some reason) = (.error (.spawn reason), g) := by
  simp only [submit, idle.not_busy, reaped]

theorem submit_spawned (reaped : f.reap = (none, g)) :
    f.submit task none = (.ok (), g.startThread task) := by
  simp only [submit, idle.not_busy, reaped]

theorem reap_stepThread (engine : LogEngine ε ρ) (sound : f.Sound) (i : Nat) :
    (f.stepThread engine i).reap = (f.reap.1, f.reap.2.stepThread engine i) := by
  cases held : f.worker with
  | none => simp only [reap, stepThread_worker, held]
  | some worker =>
    obtain ⟨result, exited⟩ := idle worker held
    have still := (change_stepThread engine sound.connected i).outcome? exited
    simp only [reap, stepThread_worker, held, exited, still, stepThread_withWorker]

/-- A thread may go on before the submission or after it. -/
theorem submit_stepThread (engine : LogEngine ε ρ) (sound : f.Sound)
    (within : i < f.threads.length) (task : FetchTask) (spawnFailure : Option String) :
    (f.stepThread engine i).submit task spawnFailure =
      ((f.submit task spawnFailure).1, (f.submit task spawnFailure).2.stepThread engine i) := by
  have threads : f.reap.2.threads = f.threads := f.reap_spec.kept.2.1
  have later := idle.stepThread engine sound i
  have reaped := idle.reap_stepThread engine sound i
  generalize hreap : f.reap = before at threads reaped
  obtain ⟨_ | error, g⟩ := before
  · cases spawnFailure with
    | some reason => rw [idle.submit_unspawned hreap, later.submit_unspawned reaped]
    | none =>
      rw [idle.submit_spawned hreap, later.submit_spawned reaped,
        stepThread_startThread engine (threads ▸ within)]
  · rw [idle.submit_of_failure hreap, later.submit_of_failure reaped]

end Idle

/-- A submission that does not find a thread at work finds an idle fetcher. -/
theorem idle_of_not_busy
    (other : ∀ split, (f.submit task spawnFailure).1 ≠ .error (.fetcherBusy split)) : f.Idle := by
  intro worker held
  by_contra unfinished
  have working : f.outcome? worker.thread = none :=
    Option.eq_none_iff_forall_not_mem.mpr fun result exited => unfinished ⟨result, exited⟩
  refine other worker.split ?_
  simp only [submit, held, Option.filter_some, working, Option.isNone_none, if_true]

end Fetcher

namespace Session

/-- A fetcher is used by its caller, in whatever order, while its threads go on as they like; then a
task is submitted. If the submission is refused, the current task, the queue, the threads and what
they have done are as before, and so are the calls of the engine. It is refused as busy only while
the thread of the current task is at work, in the name of that split, and nothing at all has
changed. If no thread could be started, the worker slot is empty and that is all. Any other error is
the one that was due; it is collected with it, and the next submission that finds a thread succeeds.
A submission that succeeds has found the slot empty, or the thread in it at a good end: every thread
has come to its end by then and all failures have been collected, but for those of threads whose
handles a close has lost on breaking off. As long as all calls have returned there are none.
Wherever a submission does not find a thread at work, it does not matter whether a thread makes a
step before it or after it. -/
theorem refused_submission_starts_nothing (engine : LogEngine ε ρ) (state : ε) (source : Source)
    (config : FetchSettings) (events : List SessionEvent) (task : FetchTask)
    (spawnFailure : Option String) :
    let s : Session ε ρ := (start (.create state source config)).takeAll engine events
    let f := s.fetcher
    let result := (f.submit task spawnFailure).1
    let later := (f.submit task spawnFailure).2
    (∀ error, result = .error error → f.Keeps later ∧ later.engineCalls = f.engineCalls) ∧
    (∀ split, result = .error (.fetcherBusy split) →
      later = f ∧ f.currentSplit.map Range.id = some split ∧
        ∃ i thread, f.current = some i ∧ f.threads[i]? = some thread ∧
          thread.hasExited = false) ∧
    (∀ reason, result = .error (.spawn reason) →
      spawnFailure = some reason ∧ later = { f with worker := none }) ∧
    (∀ error, result = .error error → error.isRefusal = false →
      f.uncollected = some error ∧ later = { f with worker := none } ∧
        ∀ next, (later.submit next none).1 = .ok ()) ∧
    (result = .ok () →
      (∀ worker, f.worker = some worker → f.outcome? worker.thread = some .ok) ∧
      (∀ i thread, f.threads[i]? = some thread → i ∉ s.lost → thread.hasExited = true) ∧
      s.surfaced = f.failures s.lost) ∧
    (s.live = true → s.lost = []) ∧
    ((∀ split, result ≠ .error (.fetcherBusy split)) → ∀ i < f.threads.length,
      (f.stepThread engine i).submit task spawnFailure =
        (result, later.stepThread engine i)) := by
  intro s f result later
  have sound : s.Sound := (sound_start state source config).takeAll events
  have owes : f.Owes s.lost f.worker s.surfaced := sound.owes
  have submits : f.Submits task spawnFailure result later := f.submit_spec task spawnFailure
  have idle : (∀ split, result ≠ .error (.fetcherBusy split)) → f.Idle := Fetcher.idle_of_not_busy
  refine ⟨?_, ?_, ?_, ?_, ?_, sound.kept, fun other i before =>
    (idle other).submit_stepThread engine sound.fetcher before task spawnFailure⟩
  all_goals clear_value result later
  · rintro error rfl
    exact ⟨submits.keeps, submits.keeps.engineCalls⟩
  · rintro split rfl
    cases submits with
    | busy held working => exact ⟨rfl, (owes.held held).1.busy working⟩
    | failed reaps =>
      -- What a thread comes out with is never a refusal.
      obtain ⟨own, failure⟩ := owes.failureOf_of_reaps sound.fetcher reaps
      cases failure
  · rintro reason rfl
    cases submits with
    | unspawned reaps vacant refused => exact ⟨refused, reaps.eq_of_vacant vacant⟩
    | failed reaps =>
      obtain ⟨own, failure⟩ := owes.failureOf_of_reaps sound.fetcher reaps
      cases failure
  · rintro error rfl due
    cases submits with
    | busy | unspawned => cases due
    | failed reaps =>
      have vacant := reaps.vacant_of_failure
      refine ⟨reaps.uncollected_eq, reaps.eq_of_vacant vacant, fun next => ?_⟩
      rw [Fetcher.submit_of_vacant vacant]
  · rintro rfl
    cases submits with
    | started reaps vacant spawned =>
      refine ⟨fun worker held => reaps.outcome_ok vacant held, fun i thread present unlost =>
        reaps.exited vacant owes present unlost, ?_⟩
      have all := owes.total
      rwa [reaps.nothing_uncollected vacant, Option.toList_none, List.append_nil] at all

/-- A thread has failed after a close had given up on it. The next submission returns its error, and
the one after that succeeds. -/
theorem resubmitted_after_failure :
    let cause := EngineError.failed "ORA-01013: user requested cancel"
    let engine := playedEngine [.move .idle, .move (.leave (.failed cause))]
    let events : List SessionEvent :=
      [.call (.submit (.create Sample.split) none), .step 0, .call (.close .zero .zero [])] ++
        List.replicate 4 (.step 0)
    let s : Session Unit (List PlayedMove) :=
      (start (.create () (.named "ORCLCDB") .standard)).takeAll engine events
    let refused := s.fetcher.submit (.create Sample.split) none
    s.live = true ∧ refused.1 = .error (.engine cause) ∧
      refused.2.currentTask = s.fetcher.currentTask ∧
      (refused.2.submit (.create Sample.split) none).1 = .ok () := by
  intro cause engine events s refused
  have live : s.live = true := by decide
  have failed : refused.1 = .error (.engine cause) := by decide
  obtain ⟨keeps, -, -, due, -⟩ := refused_submission_starts_nothing engine () (.named "ORCLCDB")
    .standard events (.create Sample.split) none
  exact ⟨live, failed, (keeps _ failed).1.currentTask, (due _ failed rfl).2.2 _⟩

/-- A close with the longest timeout loses the handle of a thread at work. The next submission
succeeds, and there are two threads at work. -/
theorem submission_beside_lost_thread :
    let engine := playedEngine [.move .idle, .poll]
    let s : Session Unit (List PlayedMove) :=
      (start (.create () (.named "ORCLCDB") .standard)).takeAll engine
        [.call (.submit (.create Sample.split) none), .step 0, .step 0,
          .call (.close .zero .longest [])]
    let submitted := s.fetcher.submit (.create Sample.split) none
    s.fetcher.threads.map FetchThread.hasExited = [false] ∧ s.surfaced = [] ∧
      submitted.1 = .ok () ∧ submitted.2.threads.map FetchThread.hasExited = [false, false] := by
  decide

/-- One task is refused for each of the three reasons before it is taken. -/
example :
    let cause := EngineError.failed "ORA-01013: user requested cancel"
    let engine := playedEngine [.move .idle, .move (.leave (.failed cause))]
    let submit (spawnFailure : Option String) :=
      SessionEvent.call (.submit (.create Sample.split) spawnFailure)
    let s : Session Unit (List PlayedMove) :=
      (start (.create () (.named "ORCLCDB") .standard)).takeAll engine
        ([submit none, submit none] ++ List.replicate 5 (.step 0) ++
          [submit none, submit (some "no threads"), submit none])
    s.answers.map Fetcher.Answer.error? =
        [none, some (.fetcherBusy Sample.split.id), some (.engine cause),
          some (.spawn "no threads"), none] ∧
      s.fetcher.threads.length = 2 := by
  decide

end Session

end ChangeStream
