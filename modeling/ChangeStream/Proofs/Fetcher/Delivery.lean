import ChangeStream.Sink.Channel
import ChangeStream.Proofs.Execution
import ChangeStream.Proofs.Tally
import ChangeStream.Proofs.Task

/-!
# What a thread does to the queue

As long as there is a receiver, the queue takes every record that it answers for. A thread then
reports no error, and a step of it adds to the queue exactly the records that its dispatches were
accepted for. How the thread comes out is its own affair: it fails with the error of its engine,
because its task was used before, or because it was unwound; and a task does not end as failed
without such a failure, unless its engine has told the context to fail.
-/

namespace ChangeStream

variable {ε ρ : Type}

/-! ## The queue -/

namespace Channel

variable {channel channel' : Channel}

/-- A queue with a receiver does not refuse: it takes a record, or it has no room yet. -/
theorem outlet_of_connected (connected : channel.connected = true) {record : Record}
    {reply : Reply} (answered : outlet channel record = some (reply, channel')) :
    reply = .accepted ∧ channel'.connected = true ∧
    channel'.records = channel.records ++ [record] := by
  unfold outlet at answered
  rw [connected] at answered
  split at answered
  · contradiction
  · split at answered
    · cases answered
    · obtain ⟨rfl, rfl⟩ := Prod.mk.inj (Option.some.inj answered)
      exact ⟨rfl, rfl, Queue.toList_enqueue _ _⟩

theorem receive_eq_some {record : Record} (received : channel.receive = (some record, channel')) :
    channel.records = record :: channel'.records ∧ channel'.connected = channel.connected := by
  unfold receive at received
  split at received
  · cases received
  · next dequeued =>
    obtain ⟨hrecord, rfl⟩ := Prod.mk.inj received
    obtain rfl := Option.some.inj hrecord
    exact ⟨Queue.toList_of_dequeue? dequeued, rfl⟩

theorem records_of_receive_none (received : channel.receive = (none, channel')) :
    channel.records = [] := by
  unfold receive at received
  split at received
  · next dequeued => exact Queue.dequeue?_eq_none_iff.mp dequeued
  · cases received

/-- What happens to a queue with a receiver while a thread goes through a trace. -/
structure Takes (channel : Channel) (trace : Trace) (channel' : Channel) : Prop where
  connected : channel'.connected = true
  records : channel'.records = channel.records ++ trace.accepted
  attempts : trace.attempts = trace.accepted.map (·, none)
  reports : trace.reports = []

theorem Takes.of_quiet (connected : channel.connected = true) {trace : Trace}
    (quiet : trace.Quiet) :
    channel.Takes trace channel where
  connected := connected
  records := by rw [quiet.accepted, List.append_nil]
  attempts := by rw [quiet.attempts, quiet.accepted, List.map_nil]
  reports := quiet.reports

end Channel

theorem Reading.conclude_accepted_attempts (reading : Reading) (record : Record) :
    (reading.conclude record .accepted).2.attempts =
      (reading.conclude record .accepted).2.accepted.map (·, none) := by
  rw [conclude_attempts, conclude_accepted]
  rfl

theorem Execution.Step.takes {engine : LogEngine ε ρ} {x x' : Execution ρ}
    {shared shared' : Shared ε Channel} {deed : Deed} {trace : Trace}
    (h : Step engine Channel.outlet x shared deed x' shared' trace)
    (connected : shared.sink.connected = true) : shared.sink.Takes trace shared'.sink := by
  cases h with
  | nothing => exact .of_quiet connected ⟨rfl, rfl, rfl⟩
  | @answer record reply state offered answered =>
    obtain ⟨rfl, hconnected, hrecords⟩ := Channel.outlet_of_connected connected answered
    exact {
      connected := hconnected
      records := hrecords.trans (congrArg _ (x.reading.conclude_accepted record .accepted).symm)
      attempts := x.reading.conclude_accepted_attempts record
      reports := x.reading.conclude_reports record .accepted }
  | move => exact .of_quiet connected (perform_quiet _ _)

theorem TaskRun.step_takes (engine : LogEngine ε ρ) (source : Source) (pollInterval : Duration)
    (run : TaskRun ρ) {shared : Shared ε Channel} (connected : shared.sink.connected = true) :
    shared.sink.Takes (run.step engine Channel.outlet source pollInterval shared).2.2
      (run.step engine Channel.outlet source pollInterval shared).2.1.sink := by
  cases run with
  | starting task =>
    simp only [step]
    split <;> exact .of_quiet connected ⟨rfl, rfl, rfl⟩
  | executing x =>
    simp only [step]
    split
    · next ending left =>
      obtain ⟨events, htrace⟩ := leave_logs (ρ := ρ) x.reading ending
      rw [htrace]
      exact .of_quiet connected (Trace.quiet_ofLogs events)
    · exact (x.step_spec engine Channel.outlet shared).takes connected
  | settled task result =>
    obtain ⟨events, htrace⟩ := task.release_logs
    simp only [step, htrace]
    exact .of_quiet connected ((Trace.quiet_ofLogs events).append ⟨rfl, rfl, rfl⟩)
  | exited task result => exact .of_quiet connected ⟨rfl, rfl, rfl⟩

/-! ## How a thread comes out -/

/-- The results that the thread of a split can have. -/
inductive TaskResult.Of (split : SplitId) : TaskResult → Prop
  | ok : Of split .ok
  | engine (cause : EngineError) : Of split (.error (.engine cause))
  | alreadyExecuted : Of split (.error (.alreadyExecuted split))
  | panicked (message : String) : Of split (.panicked message)

/-- Whether the engine told the context to fail. -/
def Trace.TellsToFail (trace : Trace) : Prop := ∃ effective, .failCalled effective ∈ trace

namespace TaskRun

/-- What a thread has to show for itself. `told` is whether its engine has told the
context to fail. -/
inductive Accountable (told : Prop) : TaskRun ρ → Prop
  | starting (task : FetchTask) : Accountable told (.starting task)
  | executing {x : Execution ρ} (blamed : x.reading.run.verdict = some .failed → told) :
      Accountable told (.executing x)
  | settled {task : FetchTask} {result : TaskResult} (terminal : task.state.isTerminal = true)
      (own : result.Of task.range.id) (blamed : task.state = .failed → result = .ok → told) :
      Accountable told (.settled task result)
  | exited {task : FetchTask} {result : TaskResult} (own : result.Of task.range.id)
      (blamed : task.state = .failed → result = .ok → told) : Accountable told (.exited task result)

variable {told told' : Prop} {run : TaskRun ρ}

theorem Accountable.mono (h : run.Accountable told) (later : told → told') :
    run.Accountable told' := by
  cases h with
  | starting task => exact .starting task
  | executing blamed => exact .executing (later ∘ blamed)
  | settled terminal own blamed =>
    exact .settled terminal own fun hstate hok => later (blamed hstate hok)
  | exited own blamed => exact .exited own fun hstate hok => later (blamed hstate hok)

end TaskRun

/-- Finishing a read does not make it fail. -/
theorem RunKind.finishVerdict_ne_failed (kind : RunKind) : kind.finishVerdict ≠ some .failed := by
  cases kind <;> nofun

namespace Reading

variable {reading : Reading}

theorem failed_of_conclude_accepted {record : Record}
    (failed : (reading.conclude record .accepted).1.run.verdict = some .failed) :
    reading.run.verdict = some .failed := by
  rw [conclude_eq] at failed
  rcases Option.or_eq_some_iff.mp failed with before | ⟨-, given⟩
  · exact before
  · cases record with
    | change split event => cases given
    | watermark event => exact absurd given reading.run.kind.finishVerdict_ne_failed

theorem failed_of_after_move {move : Move}
    (failed : (reading.after (.move move)).run.verdict = some .failed) :
    reading.run.verdict = some .failed ∨ move = .fail := by
  cases move with
  | finish =>
    rw [after, finish_eq] at failed
    rcases Option.or_eq_some_iff.mp failed with before | ⟨-, given⟩
    · exact .inl before
    · exact absurd given reading.run.kind.finishVerdict_ne_failed
  | fail => exact .inr rfl
  | signal | idle | wait | close | observe | takeRound | executeAgain | log | leave =>
    exact .inl failed

theorem settle_terminal (ending : Ending) : (reading.settle ending).1.state.isTerminal = true :=
  settledState_terminal _ _ _

/-- An engine that returns leaves its task failed only on a verdict. -/
theorem failed_of_settle_returned (failed : (reading.settle .returned).1.state = .failed) :
    reading.run.verdict = some .failed := by
  have stopped : reading.run.stopReason = some .failed := by
    simp only [settle] at failed
    cases hreason : reading.run.stopReason with
    | none =>
      simp only [hreason, settledState] at failed
      split at failed <;> contradiction
    | some reason =>
      rw [hreason] at failed
      cases reason with
      | failed => rfl
      | closed => cases failed
      | completed => cases failed
  exact reading.run.stopReason_eq_failed_iff.mp stopped

end Reading

namespace TaskRun.Accountable

variable {told : Prop} {run : TaskRun ρ}

theorem close (h : run.Accountable told) : run.close.Accountable told := by
  cases h with
  | starting task => exact .starting task.close
  | executing blamed => exact .executing blamed
  | @settled task result terminal own blamed =>
    have same : task.close.state = task.state := FetchTask.close_state_of_isTerminal terminal
    exact .settled (same ▸ terminal) own (same ▸ blamed)
  | @exited task result own blamed =>
    refine .exited own fun failed => blamed ?_
    rw [FetchTask.close] at failed
    cases hstate : task.state <;> simp [hstate, TaskState.afterClose] at failed ⊢

theorem answer {x : Execution ρ} (h : (TaskRun.executing x).Accountable told) (record : Record) :
    (TaskRun.executing (x.answer record .accepted).1).Accountable told := by
  cases h with
  | executing blamed =>
    exact .executing fun failed => blamed (Reading.failed_of_conclude_accepted failed)

/-- What an engine does cannot be held against the queue. -/
theorem work {engine : LogEngine ε ρ} {x x' : Execution ρ} {shared shared' : Shared ε Channel}
    {deed : Deed} {trace : Trace} (h : (TaskRun.executing x).Accountable told)
    (step : Execution.Step engine Channel.outlet x shared deed x' shared' trace)
    (connected : shared.sink.connected = true) :
    (TaskRun.executing x').Accountable (told ∨ trace.TellsToFail) := by
  cases step with
  | nothing => exact h.mono .inl
  | answer offered answered =>
    obtain ⟨rfl, -, -⟩ := Channel.outlet_of_connected connected answered
    exact (h.answer _).mono .inl
  | @move move progress state offered next =>
    cases h with
    | executing blamed =>
      refine .executing fun failed => ?_
      rw [Execution.perform_reading] at failed
      rcases Reading.failed_of_after_move failed with before | rfl
      · exact .inl (blamed before)
      · exact .inr ⟨_, List.mem_singleton_self _⟩

theorem leave {x : Execution ρ} (h : (TaskRun.executing x).Accountable told) (ending : Ending) :
    (TaskRun.leave (ρ := ρ) x.reading ending).1.Accountable told := by
  cases h with
  | executing blamed =>
    cases ending with
    | panicked message => exact .exited (.panicked message) nofun
    | failed error => exact .settled (x.reading.settle_terminal _) (.engine error) nofun
    | returned =>
      exact .settled (x.reading.settle_terminal _) .ok fun failed _ =>
        blamed (Reading.failed_of_settle_returned failed)

theorem step (h : run.Accountable told) (engine : LogEngine ε ρ) (source : Source)
    (pollInterval : Duration) {shared : Shared ε Channel}
    (connected : shared.sink.connected = true) :
    (run.step engine Channel.outlet source pollInterval shared).1.Accountable
      (told ∨ (run.step engine Channel.outlet source pollInterval shared).2.2.TellsToFail) := by
  cases run with
  | starting task =>
    have hentry : task.entry = task.state.entry task.range.id := rfl
    simp only [TaskRun.step, hentry]
    cases hstate : task.state with
    | created => exact .executing nofun
    | closed => exact .exited .ok fun failed => by rw [hstate] at failed; cases failed
    | running | closing | completed | failed => exact .exited .alreadyExecuted nofun
  | executing x =>
    simp only [TaskRun.step]
    split
    · next ending left => exact (h.leave ending).mono .inl
    · exact h.work (x.step_spec engine Channel.outlet shared) connected
  | settled task result =>
    cases h with
    | settled terminal own blamed =>
      have same : task.release.1.state = task.state :=
        FetchTask.release_state_of_isTerminal terminal
      exact .exited (task.release_range.symm ▸ own) fun failed ok =>
        .inl (blamed (same ▸ failed) ok)
  | exited task result => exact h.mono .inl

end TaskRun.Accountable

/-! ## The task of a thread -/

namespace TaskRun

theorem close_task_range (run : TaskRun ρ) : run.close.task.range = run.task.range := by
  cases run <;> rfl

theorem close_result? (run : TaskRun ρ) : run.close.result? = run.result? := by
  cases run <;> rfl

theorem leave_task_range (reading : Reading) (ending : Ending) :
    (leave (ρ := ρ) reading ending).1.task.range = reading.range := by
  cases ending with
  | panicked message => exact FetchTask.release_range _
  | failed error => rfl
  | returned => rfl

/-- A thread reads one range all its life. -/
theorem step_task_range (engine : LogEngine ε ρ) (source : Source) (pollInterval : Duration)
    (run : TaskRun ρ) (shared : Shared ε Channel) :
    (run.step engine Channel.outlet source pollInterval shared).1.task.range = run.task.range := by
  cases run with
  | starting task =>
    simp only [step]
    split <;> rfl
  | executing x =>
    simp only [step]
    split
    · exact leave_task_range _ _
    · have hreading := (x.step_spec engine Channel.outlet shared).reading
      simp only [task, Reading.asTask, hreading, Reading.after_range]
  | settled task result => exact task.release_range
  | exited task result => rfl

end TaskRun

end ChangeStream
