import ChangeStream.Proofs.Settlement
import ChangeStream.Proofs.Tally

/-!
# The attempt that decides a read

A task hands records to the sink as long as its read has no verdict. An attempt that gives one,
since the record was refused or since it was the END watermark and was taken, is therefore the
last, and no verdict has come before it. This holds with every engine and every sink, whenever
the task is closed.
-/

namespace ChangeStream

variable {ε ρ κ : Type}

/-! ## Traces -/

namespace Trace

/-- The attempts of a trace are to hand over records of a range, and the one that gives a verdict is
the last and gives the trace its verdict. -/
structure Orderly (range : Range) (trace : Trace) : Prop where
  offers : ∀ attempt ∈ trace.attempts, range.Offers attempt.1
  last {before after : List (Record × Option DispatchError)}
    {attempt : Record × Option DispatchError}
    {verdict : Verdict} : trace.attempts = before ++ attempt :: after →
    (Occurrence.dispatched attempt.1 attempt.2).verdict? range.isBounded = some verdict →
    after = [] ∧ trace.verdict? range.isBounded = some verdict

variable {range : Range} {trace more : Trace}

theorem orderly_of_no_attempts (nothing : trace.attempts = []) : trace.Orderly range where
  offers attempt attempted := by
    rw [nothing] at attempted
    cases attempted
  last attempts := by
    rw [nothing] at attempts
    exact absurd attempts.symm (List.append_ne_nil_of_right_ne_nil _ (List.cons_ne_nil _ _))

theorem Orderly.append_quiet (orderly : trace.Orderly range) (quiet : more.Quiet) :
    (trace ++ more).Orderly range := by
  have same : (trace ++ more).attempts = trace.attempts := by
    rw [attempts_append, quiet.attempts, List.append_nil]
  constructor
  · rw [same]
    exact orderly.offers
  · intro before after attempt verdict attempts gives
    rw [same] at attempts
    obtain ⟨hafter, hverdict⟩ := orderly.last attempts gives
    refine ⟨hafter, ?_⟩
    rw [verdict?_append, hverdict, Option.some_or]

/-- As long as there is no verdict, another attempt may follow. -/
theorem Orderly.append_attempt (orderly : trace.Orderly range)
    (undecided : trace.verdict? range.isBounded = none) {record : Record}
    {refusal : Option DispatchError} (offers : range.Offers record)
    (attempts : more.attempts = [(record, refusal)])
    (verdict : more.verdict? range.isBounded =
      (Occurrence.dispatched record refusal).verdict? range.isBounded) :
    (trace ++ more).Orderly range := by
  constructor
  · intro attempt attempted
    rw [attempts_append, attempts, List.mem_append, List.mem_singleton] at attempted
    rcases attempted with earlier | rfl
    · exact orderly.offers attempt earlier
    · exact offers
  · intro before after attempt given split gives
    rw [attempts_append, attempts] at split
    rcases List.eq_nil_or_concat after with rfl | ⟨between, last, rfl⟩
    · obtain ⟨-, rfl⟩ := List.append_inj' split rfl |>.imp_right (List.cons.inj · |>.1)
      refine ⟨rfl, ?_⟩
      rw [verdict?_append, undecided, Option.none_or, verdict]
      exact gives
    · -- The attempt is an earlier one, which would have given a verdict.
      rw [List.concat_eq_append, ← List.cons_append, ← List.append_assoc] at split
      obtain ⟨earlier, -⟩ := List.append_inj' split rfl
      rw [(orderly.last earlier gives).2] at undecided
      cases undecided

theorem accepted_eq_filterMap (trace : Trace) :
    trace.accepted = trace.attempts.filterMap fun attempt =>
      if attempt.2.isNone then some attempt.1 else none := by
  rw [accepted, attempts, List.filterMap_filterMap]
  congr 1
  funext occurrence
  cases occurrence with
  | dispatched record refusal => cases refusal <;> rfl
  | _ => rfl

theorem mem_attempts_of_mem_accepted {record : Record} (taken : record ∈ trace.accepted) :
    (record, none) ∈ trace.attempts := by
  rw [accepted_eq_filterMap, List.mem_filterMap] at taken
  obtain ⟨⟨other, refusal⟩, attempted, hother⟩ := taken
  cases refusal with
  | none =>
    obtain rfl := Option.some.inj hother
    exact attempted
  | some error => cases hother

theorem Orderly.accepted_offers (orderly : trace.Orderly range) {record : Record}
    (taken : record ∈ trace.accepted) : range.Offers record :=
  orderly.offers _ (mem_attempts_of_mem_accepted taken)

end Trace

theorem Range.Offers.split {range : Range} {record : Record} (offers : range.Offers record) :
    record.split = range.id := by
  cases record with
  | change split event => exact offers
  | watermark event => exact offers.1

theorem Range.Offers.verdict?_dispatched {range : Range} {record : Record}
    (offers : range.Offers record) (refusal : Option DispatchError) :
    (Occurrence.dispatched record refusal).verdict? range.isBounded =
      range.contextKind.answerVerdict record refusal := by
  cases refusal with
  | some error => cases record <;> rfl
  | none =>
    cases record with
    | change split event => simp [Occurrence.verdict?, Record.isEnd, RunKind.answerVerdict]
    | watermark event =>
      simp [Occurrence.verdict?, Record.isEnd, RunKind.answerVerdict,
        Range.finishVerdict_contextKind, offers.2.1]

/-- Only a bounded range has an END watermark, and whoever takes it completes the read. -/
theorem Range.Offers.verdict_of_isEnd {range : Range} {record : Record}
    (offers : range.Offers record) (isEnd : record.isEnd = true) :
    (Occurrence.dispatched record none).verdict? range.isBounded = some .completed := by
  cases record with
  | change split event => cases isEnd
  | watermark event =>
    obtain ⟨-, -, stop, bounded, -⟩ := offers
    have hbounded : range.isBounded = true := by
      rw [Range.isBounded, bounded]
      rfl
    simp only [Occurrence.verdict?, hbounded, isEnd, Bool.and_self, if_true]

/-- An END watermark that was taken is the last record that was, and the only one of its kind. -/
theorem Trace.Orderly.endWatermark_last {range : Range} {trace : Trace}
    (orderly : trace.Orderly range) {record : Record} (taken : record ∈ trace.accepted)
    (isEnd : record.isEnd = true) :
    ∃ before, trace.accepted = before ++ [record] ∧ ∀ earlier ∈ before, earlier.isEnd = false := by
  obtain ⟨before, after, split⟩ := List.append_of_mem (mem_attempts_of_mem_accepted taken)
  obtain ⟨rfl, -⟩ := orderly.last split ((orderly.accepted_offers taken).verdict_of_isEnd isEnd)
  rw [accepted_eq_filterMap, split, List.filterMap_append]
  refine ⟨_, rfl, fun earlier member => ?_⟩
  refine Bool.eq_false_iff.mpr fun ends => ?_
  -- An earlier END watermark would have been the last attempt.
  obtain ⟨⟨other, refusal⟩, attempted, hother⟩ := List.mem_filterMap.mp member
  cases refusal with
  | some error => cases hother
  | none =>
    obtain rfl := Option.some.inj hother
    obtain ⟨front, back, rfl⟩ := List.append_of_mem attempted
    have offers : range.Offers other := by
      refine orderly.offers (other, none) ?_
      rw [split]
      exact List.mem_append_left _ attempted
    rw [List.append_assoc, List.cons_append] at split
    have nothing := (orderly.last split (offers.verdict_of_isEnd ends)).1
    exact List.append_ne_nil_of_right_ne_nil _ (List.cons_ne_nil _ _) nothing

/-! ## Executions -/

namespace Execution

/-- A record is on its way to the sink only while the engine is at work and there is no verdict. -/
structure Undecided (x : Execution ρ) (range : Range) (trace : Trace) : Prop where
  verdict {record : Record} : x.offered = some record → trace.verdict? range.isBounded = none
  ending {record : Record} : x.offered = some record → x.ending = none

variable {x x' : Execution ρ} {range : Range} {trace more : Trace} {closed : Bool}
  {engine : LogEngine ε ρ} {outlet : Outlet κ} {shared shared' : Shared ε κ} {deed : Deed}

theorem undecided_of_idle (idle : x.offered = none) : x.Undecided range trace where
  verdict offered := nomatch idle.symm.trans offered
  ending offered := nomatch idle.symm.trans offered

/-- A move that leaves a record for the sink is a signal, which has found the context running. -/
theorem signal_of_offered {move : Move} {progress : ρ} {record : Record} (idle : x.offered = none)
    (offered : ({ x with progress }.perform move).1.offered = some record) :
    (∃ signal, move = .signal signal) ∧ x.reading.run.isRunning = true := by
  cases move with
  | signal signal => exact ⟨⟨signal, rfl⟩, (x.reading.offers_of_offer? offered).2⟩
  | _ => cases idle.symm.trans offered

theorem Step.orderly (step : Step engine outlet x shared deed x' shared' more)
    (reflects : x.Reflects range trace closed) (undecided : x.Undecided range trace)
    (orderly : trace.Orderly range) (working : x.ending = none) :
    (trace ++ more).Orderly range ∧ x'.Undecided range (trace ++ more) := by
  cases step with
  | nothing =>
    rw [List.append_nil]
    exact ⟨orderly, undecided⟩
  | @answer record reply state offered answered =>
    have offers := reflects.offers record offered
    have verdict : (x.answer record reply).2.verdict? range.isBounded =
        x.reading.run.kind.answerVerdict record reply.refusal := by
      rw [← reflects.range_eq]
      exact Reading.conclude_verdict? reply (reflects.kind.trans (reflects.range_eq ▸ rfl))
        (reflects.range_eq ▸ offers)
    rw [reflects.kind, ← offers.verdict?_dispatched] at verdict
    exact ⟨orderly.append_attempt (undecided.verdict offered) offers
      (x.reading.conclude_attempts record reply)
      verdict, undecided_of_idle rfl⟩
  | @move move progress state idle next =>
    refine ⟨orderly.append_quiet (perform_quiet _ _), fun offered => ?_, fun offered => ?_⟩
    · obtain ⟨⟨signal, rfl⟩, running⟩ := signal_of_offered idle offered
      rw [Trace.verdict?_append, ← reflects.verdict, ((RunContext.isRunning_iff _).mp running).1,
        Option.none_or]
      exact Trace.verdict?_ofLogs _ _
    · obtain ⟨⟨signal, rfl⟩, -⟩ := signal_of_offered idle offered
      exact working

end Execution

/-! ## Courses -/

/-- The engine has left, and the task is settled or even released. -/
def TaskRun.IsOver : TaskRun ρ → Prop
  | .starting _ | .executing _ => False
  | .settled .. | .exited .. => True

namespace Course

variable {context : TaskContext ε ρ κ} {course : Course ε ρ κ} {range : Range}

theorem over_of_leaving {x : Execution ρ} {ending : Ending} (run : course.run = .executing x)
    (left : x.ending = some ending) : (course.take context .step).run.IsOver := by
  rw [take_step_leaving run left]
  cases ending <;> exact trivial

theorem later_of_over (ended : course.run.IsOver) (context : TaskContext ε ρ κ) (turn : Turn) :
    course.Later (course.take context turn) ∧ (course.take context turn).run.IsOver := by
  cases hrun : course.run with
  | starting task => exact (hrun ▸ ended : (TaskRun.starting task).IsOver).elim
  | executing x => exact (hrun ▸ ended : (TaskRun.executing x).IsOver).elim
  | settled task result =>
    refine ⟨later_of_settled hrun context turn, ?_⟩
    cases turn with
    | step =>
      rw [take_step_settled hrun]
      exact trivial
    | close =>
      rw [take, hrun]
      exact trivial
  | exited task result =>
    refine ⟨later_of_exited hrun context turn, ?_⟩
    cases turn with
    | step =>
      rw [take_step_exited hrun, hrun]
      exact trivial
    | close =>
      rw [take, hrun]
      exact trivial

theorem Later.orderly {other : Course ε ρ κ} (later : course.Later other)
    (orderly : course.trace.Orderly range) :
    other.trace.Orderly range := by
  obtain ⟨events, hlogs⟩ := later.logs
  rw [hlogs]
  exact orderly.append_quiet (Trace.quiet_ofLogs events)

/-- What holds of the course of a task that was created for a range, at any time. -/
inductive Proper (range : Range) (course : Course ε ρ κ) : Prop
  | starting {task : FetchTask} (run : course.run = .starting task) (same : task.range = range)
      (state : task.state = .created ∨ task.state = .closed) (trace : course.trace = [])
      (closed : course.closedInTime = false)
  | executing {x : Execution ρ} (run : course.run = .executing x)
      (reflects : x.Reflects range course.trace course.closedInTime)
      (undecided : x.Undecided range course.trace)
      (orderly : course.trace.Orderly range)
  | finished (ended : course.run.IsOver) (orderly : course.trace.Orderly range)

namespace Proper

theorem orderly (proper : course.Proper range) : course.trace.Orderly range := by
  cases proper with
  | starting run same state trace =>
    rw [trace]
    exact Trace.orderly_of_no_attempts rfl
  | executing run reflects undecided orderly => exact orderly
  | finished ended orderly => exact orderly

/-- What is known of a task that an engine is at work on. -/
theorem execution {x : Execution ρ} (proper : course.Proper range)
    (run : course.run = .executing x) :
    x.Reflects range course.trace course.closedInTime ∧ x.Undecided range course.trace := by
  cases proper with
  | starting starting => cases run.symm.trans starting
  | executing executing reflects undecided =>
    obtain rfl := TaskRun.executing.inj (run.symm.trans executing)
    exact ⟨reflects, undecided⟩
  | finished ended =>
    rw [run] at ended
    exact ended.elim

theorem reflects {x : Execution ρ} (proper : course.Proper range)
    (run : course.run = .executing x) :
    x.Reflects range course.trace course.closedInTime :=
  (proper.execution run).1

theorem undecided {x : Execution ρ} (proper : course.Proper range)
    (run : course.run = .executing x) :
    x.Undecided range course.trace :=
  (proper.execution run).2

/-- A task that is about to be executed is new, or it has been closed. -/
theorem state_of_starting {task : FetchTask} (proper : course.Proper range)
    (run : course.run = .starting task) :
    task.state = .created ∨ task.state = .closed := by
  cases proper with
  | starting starting same state =>
    obtain rfl := TaskRun.starting.inj (run.symm.trans starting)
    exact state
  | executing executing => cases run.symm.trans executing
  | finished ended =>
    rw [run] at ended
    exact ended.elim

theorem enter {task : FetchTask} (run : course.run = .starting task) (same : task.range = range)
    (created : task.state = .created) (trace : course.trace = [])
    (closed : course.closedInTime = false) (context : TaskContext ε ρ κ) :
    (course.take context .step).Proper range := by
  have enters : task.entry = .enters := by
    rw [FetchTask.entry, created]
    rfl
  have begun :=
    (Execution.Reflects.start context.engine context.source context.pollInterval task
      course.shared).1
  rw [take_step_entering run enters]
  refine .executing rfl ?_ (Execution.undecided_of_idle rfl) ?_
  · rw [← closed, same] at begun
    rw [trace]
    exact begun
  · rw [trace]
    exact Trace.orderly_of_no_attempts rfl

theorem work {x : Execution ρ} (run : course.run = .executing x)
    (reflects : x.Reflects range course.trace course.closedInTime)
    (undecided : x.Undecided range course.trace) (orderly : course.trace.Orderly range)
    (working : x.ending = none) (context : TaskContext ε ρ κ) :
    (course.take context .step).Proper range := by
  have step := x.step_spec context.engine context.outlet course.shared
  obtain ⟨horderly, hundecided⟩ := step.orderly reflects undecided orderly working
  have hreflects := reflects.step step
  have hclosed := course.closedInTime_step context
  simp only [run, TaskRun.deed] at hclosed
  rw [← hclosed] at hreflects
  have htake : course.take context .step = _ := take_step_working run working
  have htrace := congrArg Course.trace htake
  dsimp only at htrace
  rw [← htrace] at hreflects hundecided horderly
  exact .executing (congrArg Course.run htake) hreflects hundecided horderly

theorem close (proper : course.Proper range) (context : TaskContext ε ρ κ) :
    (course.take context .close).Proper range := by
  have hclosed := course.closedInTime_close context
  cases proper with
  | @starting task run same state trace closed =>
    have closedRun : (course.take context .close).run = .starting task.close := by
      rw [take, run, TaskRun.close]
    refine .starting closedRun same (.inr ?_) trace ?_
    · rcases state with state | state <;> rw [FetchTask.close, state] <;> rfl
    · rw [hclosed, closed, run]
      rfl
  | @executing x run reflects undecided orderly =>
    refine .executing (x := { x with reading := x.reading.close }) ?_ ?_
      ⟨undecided.verdict, undecided.ending⟩ orderly
    · rw [take, run, TaskRun.close]
    · simp only [run, TaskRun.phase, decide_true, Bool.or_true] at hclosed
      rw [hclosed]
      exact reflects.close
  | finished ended orderly =>
    obtain ⟨later, stays⟩ := later_of_over ended context .close
    exact .finished stays (later.orderly orderly)

theorem take (proper : course.Proper range) (context : TaskContext ε ρ κ) (turn : Turn) :
    (course.take context turn).Proper range := by
  cases turn with
  | close => exact proper.close context
  | step =>
    cases proper with
    | @starting task run same state trace closed =>
      rcases state with created | closedBefore
      · exact enter run same created trace closed context
      · have entry : task.entry = .closedBefore :=
          congrArg (TaskState.entry task.range.id) closedBefore
        rw [take_step_closedBefore run entry, trace]
        exact .finished trivial (Trace.orderly_of_no_attempts rfl)
    | @executing x run reflects undecided orderly =>
      cases left : x.ending with
      | none => exact work run reflects undecided orderly left context
      | some ending =>
        exact .finished (over_of_leaving run left) ((later_of_leaving run left).orderly orderly)
    | finished ended orderly =>
      obtain ⟨later, stays⟩ := later_of_over ended context .step
      exact .finished stays (later.orderly orderly)

end Proper

/-- A created task is executed with any engine and any sink, and closed at any time. -/
theorem proper_takeAll (context : TaskContext ε ρ κ) (range : Range) (shared : Shared ε κ)
    (turns : List Turn) :
    ((start (.create range) shared).takeAll context turns).Proper range :=
  takeAll_invariant (fun _ turn proper => proper.take context turn)
    (.starting rfl rfl (.inl rfl) rfl rfl) turns

end Course

end ChangeStream
