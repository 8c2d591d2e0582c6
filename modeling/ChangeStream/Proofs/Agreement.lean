import Mathlib.Logic.ExistsUnique
import ChangeStream.Sample
import ChangeStream.Sink.Recording
import ChangeStream.Proofs.Contract
import ChangeStream.Proofs.Settlement
import ChangeStream.Proofs.Tally

/-!
# Agreement on how a bounded read ended

The sink, the reporter and the state of the task are three witnesses of how a bounded read ended.
With an engine that keeps its contract they never disagree: either the sink took the END watermark
and the task is completed, or the sink refused a record and the task has failed, or the task was
closed and neither happened. What joins them is the tally of the trace, which fits the verdict at
every point: the record that gives the verdict is the last one.
-/

namespace ChangeStream

variable {ε ρ κ : Type}

/-! ## The invariant -/

/-- The read has stopped, for its verdict or because the task was closed. -/
def Stopped (range : Range) (trace : Trace) (closed : Bool) : Prop :=
  (trace.verdict? range.isBounded).isSome = true ∨ closed = true

theorem Stopped.mono {range : Range} {trace : Trace} {closed : Bool}
    (h : Stopped range trace closed) (more : Trace) (closes : Bool) :
    Stopped range (trace ++ more) (closed || closes) := by
  rcases h with verdict | rfl
  · left
    rw [Trace.verdict?_append, Option.isSome_or, verdict, Bool.true_or]
  · exact .inr (Bool.true_or closes)

theorem Execution.Reflects.stopped_iff {x : Execution ρ} {range : Range} {trace : Trace}
    {closed : Bool} (h : x.Reflects range trace closed) :
    x.reading.run.stopReason.isSome = true ↔ Stopped range trace closed := by
  rw [Stopped, ← h.verdict, Option.isSome_iff_ne_none, Ne,
    RunContext.stopReason_eq_none_iff, h.flag]
  cases x.reading.run.verdict <;> cases closed <;> simp

namespace Course

theorem stopped_take {course : Course ε ρ κ} {range : Range}
    (stopped : Stopped range course.trace course.closedInTime) (context : TaskContext ε ρ κ)
    (turn : Turn) :
    Stopped range (course.take context turn).trace (course.take context turn).closedInTime := by
  cases turn with
  | close =>
    rw [closedInTime_close]
    have still := stopped.mono [] (decide (course.run.phase = .executing))
    rwa [List.append_nil] at still
  | step =>
    rw [closedInTime_step]
    exact stopped.mono _ _

theorem stopped_takeAll {course : Course ε ρ κ} {range : Range}
    (stopped : Stopped range course.trace course.closedInTime) (context : TaskContext ε ρ κ)
    (turns : List Turn) :
    Stopped range (course.takeAll context turns).trace
      (course.takeAll context turns).closedInTime := by
  induction turns generalizing course with
  | nil => exact stopped
  | cons turn rest ih => exact ih (stopped_take stopped context turn)

end Course

/-- An engine that works on was told, by the end of its move, what it was told before and of the
stop that it has found at this move. -/
theorem Execution.reached_of_move {x : Execution ρ} {engine : LogEngine ε ρ} {told : Bool}
    {state state' : ε} {move : Move} {progress : ρ}
    (reached : engine.Reached told x.progress state)
    (next : engine.next x.reading.run.stopReason x.progress state = (move, progress, state'))
    (staying : ({ x with progress }.perform move).1.ending = none) :
    engine.Reached (told || x.reading.run.stopReason.isSome)
      ({ x with progress }.perform move).1.progress state' := by
  have stays :
      ∀ ending, (engine.next x.reading.run.stopReason x.progress state).1 ≠ .leave ending := by
    intro ending leaves
    rw [next] at leaves
    obtain rfl : move = .leave ending := leaves
    cases staying
  have later := reached.next x.reading.run.stopReason stays
  rw [next] at later
  rwa [perform_progress]

/-- What an engine that keeps its contract adds to the invariant of an execution. -/
structure Execution.Faithful (x : Execution ρ) (engine : LogEngine ε ρ) (state : ε) (range : Range)
    (trace : Trace) (closed : Bool) : Prop where
  undecided : ∀ record, x.offered = some record → trace.verdict? range.isBounded = none
  told : x.ending = none →
    ∃ told, engine.Reached told x.progress state ∧ (told = true → Stopped range trace closed)
  returned : x.ending = some .returned → Stopped range trace closed
  tally : trace.Tally (trace.verdict? range.isBounded)

namespace Execution.Faithful

variable {x : Execution ρ} {engine : LogEngine ε ρ} {state : ε} {range : Range} {trace : Trace}
  {closed : Bool}

theorem close (h : x.Faithful engine state range trace closed) :
    { x with reading := x.reading.close }.Faithful engine state range trace true where
  undecided := h.undecided
  told working := by
    obtain ⟨told, reached, -⟩ := h.told working
    exact ⟨told, reached, fun _ => .inr rfl⟩
  returned _ := .inr rfl
  tally := h.tally

theorem answer (h : x.Faithful engine state range trace closed)
    (reflects : x.Reflects range trace closed) (bounded : range.isBounded = true)
    (working : x.ending = none) {record : Record} (offered : x.offered = some record)
    (reply : Reply) :
    (x.answer record reply).1.Faithful engine state range (trace ++ (x.answer record reply).2)
      (closed || reply.closes) where
  undecided _ hrecord := nomatch hrecord
  told _ := by
    obtain ⟨told, reached, stopped⟩ := h.told working
    exact ⟨told, reached, fun htold => (stopped htold).mono _ _⟩
  returned hreturned := by
    rw [show (x.answer record reply).1.ending = x.ending from rfl, working] at hreturned
    cases hreturned
  tally := by
    have hkind : x.reading.run.kind = .completionDriven := by
      rw [reflects.kind, Range.contextKind, if_pos bounded]
    have offers := reflects.offers record offered
    rw [← reflects.range_eq] at offers
    have htally := h.tally
    have hverdict :=
      Reading.conclude_verdict? reply (reflects.kind.trans (reflects.range_eq ▸ rfl)) offers
    rw [reflects.range_eq] at hverdict
    rw [h.undecided record offered] at htally
    rw [Trace.verdict?_append, h.undecided record offered, Option.none_or]
    rw [show (x.answer record reply).2 = (x.reading.conclude record reply).2 from rfl, hverdict]
    exact htally.answer hkind offers reply

theorem perform (h : x.Faithful engine state range trace closed)
    (reflects : x.Reflects range trace closed) (keeps : engine.KeepsContract)
    (working : x.ending = none) (idle : x.offered = none) {move : Move} {progress : ρ}
    {state' : ε}
    (next : engine.next x.reading.run.stopReason x.progress state = (move, progress, state')) :
    ({ x with progress }.perform move).1.Faithful engine state' range
      (trace ++ ({ x with progress }.perform move).2) (closed || (Deed.move move).closes) := by
  obtain ⟨told, reached, stopped⟩ := h.told working
  have hmove : (engine.next x.reading.run.stopReason x.progress state).1 = move := by rw [next]
  have aware : (told || x.reading.run.stopReason.isSome) = true → Stopped range trace closed := by
    rw [Bool.or_eq_true]
    rintro (htold | hstopped)
    · exact stopped htold
    · exact reflects.stopped_iff.mp hstopped
  have silent : ({ x with progress }.perform move).2.verdict? range.isBounded = none := by
    cases hcase : move with
    | finish => exact absurd (hmove.trans hcase) (keeps.noFinish _ reached)
    | fail => exact absurd (hmove.trans hcase) (keeps.noFail _ reached)
    | signal signal => exact Trace.verdict?_ofLogs _ _
    | leave ending => cases ending <;> rfl
    | idle | wait | close | observe | takeRound | executeAgain | log => rfl
  constructor
  · intro record offered
    rw [Trace.verdict?_append, silent, Option.or_none, ← reflects.verdict]
    cases move with
    | signal signal =>
      -- A record is only offered while the context runs, hence without a verdict.
      have running := (x.reading.offers_of_offer? offered).2
      exact ((RunContext.isRunning_iff _).mp running).1
    | _ => cases idle.symm.trans offered
  · intro staying
    exact ⟨told || x.reading.run.stopReason.isSome, Execution.reached_of_move reached next staying,
      fun htold => (aware htold).mono _ _⟩
  · intro returned
    have leaves : move = .leave .returned := by
      cases move with
      | leave ending => exact congrArg Move.leave (Option.some.inj returned)
      | _ => cases working.symm.trans returned
    exact (aware (keeps.returns reached (hmove.trans leaves))).mono _ _
  · rw [Trace.verdict?_append, silent, Option.or_none]
    exact h.tally.append_quiet (Execution.perform_quiet _ _)

theorem step (h : x.Faithful engine state range trace closed)
    (reflects : x.Reflects range trace closed) (keeps : engine.KeepsContract)
    (bounded : range.isBounded = true) (working : x.ending = none) {outlet : Outlet κ} {sink : κ}
    {shared' : Shared ε κ} {deed : Deed} {x' : Execution ρ} {more : Trace}
    (step : Execution.Step engine outlet x ⟨state, sink⟩ deed x' shared' more) :
    x'.Faithful engine shared'.engine range (trace ++ more) (closed || deed.closes) := by
  cases step with
  | nothing =>
    change x.Faithful engine state range (trace ++ []) (closed || false)
    rwa [List.append_nil, Bool.or_false]
  | answer offered answered => exact h.answer reflects bounded working offered _
  | move idle next => exact h.perform reflects keeps working idle next

end Execution.Faithful

namespace Course

variable {range : Range} {course : Course ε ρ κ}

/-- What holds of the course of a bounded task from its entry on if the engine keeps
its contract. -/
structure Kept (engine : LogEngine ε ρ) (range : Range) (course : Course ε ρ κ) : Prop where
  entered : course.Entered range
  faithful : ∀ x, course.run = .executing x →
    x.Faithful engine course.shared.engine range course.trace course.closedInTime
  returned : course.ending = some .returned → Stopped range course.trace course.closedInTime
  tally : course.trace.Tally (course.trace.verdict? range.isBounded)

/-- After the engine has left nothing is added to the tally. -/
theorem Kept.of_later {engine : LogEngine ε ρ} (h : course.Kept engine range) {other : Course ε ρ κ}
    (entered : other.Entered range) (later : course.Later other) : other.Kept engine range := by
  obtain ⟨events, hlogs⟩ := later.logs
  refine ⟨entered, fun x run => absurd run (later.idle x), ?_, ?_⟩
  · intro returned
    have stopped := (h.returned (later.ending.symm.trans returned)).mono (.ofLogs events) false
    rwa [Bool.or_false, ← hlogs, ← later.closes] at stopped
  · rw [hlogs, Trace.verdict?_append, Trace.verdict?_ofLogs, Option.or_none]
    exact h.tally.append_quiet (Trace.quiet_ofLogs events)

variable (context : TaskContext ε ρ κ)

theorem Kept.close {x : Execution ρ} (h : course.Kept context.engine range)
    (run : course.run = .executing x) : (course.take context .close).Kept context.engine range := by
  have hclosed := course.closedInTime_close context
  simp only [run, TaskRun.phase, decide_true, Bool.or_true] at hclosed
  refine ⟨h.entered.take context .close, ?_, fun _ => .inr hclosed, h.tally⟩
  intro x' run'
  rw [Course.take, run] at run'
  obtain rfl := TaskRun.executing.inj run'
  rw [hclosed]
  exact (h.faithful x run).close

theorem Kept.work {x : Execution ρ} (h : course.Kept context.engine range)
    (keeps : context.engine.KeepsContract) (bounded : range.isBounded = true)
    (run : course.run = .executing x) (working : x.ending = none) :
    (course.take context .step).Kept context.engine range := by
  have entered := h.entered.take context .step
  obtain ⟨hreflects, hending⟩ := (entered_iff_reflects run).mp h.entered
  have hstep := (h.faithful x run).step hreflects keeps bounded working
    (x.step_spec context.engine context.outlet course.shared)
  have hclosed := course.closedInTime_step context
  simp only [run, TaskRun.deed] at hclosed
  rw [← hclosed] at hstep
  have htake : course.take context .step = _ := take_step_working run working
  have hlast : (course.take context .step).ending =
      (x.step context.engine context.outlet course.shared).1.ending := by
    rw [htake, hending.trans working]
    exact Option.or_none
  have htrace := congrArg Course.trace htake
  dsimp only at htrace
  rw [← htrace] at hstep
  refine ⟨entered, ?_, fun hreturned => hstep.returned (hlast ▸ hreturned), hstep.tally⟩
  intro x' run'
  rw [htake] at run'
  obtain rfl := TaskRun.executing.inj run'
  rw [congrArg Course.shared htake]
  exact hstep

theorem Kept.take (h : course.Kept context.engine range) (keeps : context.engine.KeepsContract)
    (bounded : range.isBounded = true) (turn : Turn) :
    (course.take context turn).Kept context.engine range := by
  cases hrun : course.run with
  | starting task => exact absurd hrun (h.entered.not_starting task)
  | executing x =>
    cases turn with
    | close => exact h.close context hrun
    | step =>
      cases hleft : x.ending with
      | none => exact h.work context keeps bounded hrun hleft
      | some ending => exact h.of_later (h.entered.take context .step) (later_of_leaving hrun hleft)
  | settled task result =>
    exact h.of_later (h.entered.take context turn) (later_of_settled hrun context turn)
  | exited task result =>
    exact h.of_later (h.entered.take context turn) (later_of_exited hrun context turn)

theorem kept_of_created {task : FetchTask} (created : task.state = .created) (shared : Shared ε κ) :
    ((start task shared).take context .step).Kept context.engine task.range := by
  have entered := entered_of_created created context shared
  have enters : task.entry = .enters := by rw [FetchTask.entry, created]; rfl
  have htake : (start task shared).take context .step = _ := take_step_entering rfl enters
  rw [htake] at entered ⊢
  refine ⟨entered, ?_, ?_, ⟨rfl, rfl, rfl⟩⟩
  · intro x run
    obtain rfl := TaskRun.executing.inj run
    refine ⟨?_, ?_, ?_, ⟨rfl, rfl, rfl⟩⟩
    · intro record offered
      cases offered
    · intro _
      refine ⟨false, .start _ _, ?_⟩
      intro told
      cases told
    · intro returned
      cases returned
  · intro returned
    cases returned

/-! ## A task that is closed before it is entered -/

/-- What holds of the course of a task from a close before its entry on: the engine is
never called. -/
structure ClosedBefore (course : Course ε ρ κ) : Prop where
  run : course.run = .starting course.run.task ∨ course.run = .exited course.run.task .ok
  state : course.run.task.state = .closed
  quiet : course.trace.Quiet
  closed : .waiting ∈ course.closes

theorem ClosedBefore.take (h : course.ClosedBefore) (turn : Turn) :
    (course.take context turn).ClosedBefore := by
  cases turn with
  | close =>
    rw [Course.take]
    refine ⟨?_, ?_, h.quiet, List.mem_append_left _ h.closed⟩
    · rcases h.run with run | run
      · exact .inl (by rw [run]; rfl)
      · exact .inr (by rw [run]; rfl)
    · have hclose : course.run.task.state.afterClose = .closed := by rw [h.state]; rfl
      rcases h.run with run | run <;> (rw [run] at hclose ⊢; exact hclose)
  | step =>
    rcases h.run with run | run
    · have hentry : course.run.task.entry = .closedBefore := by rw [FetchTask.entry, h.state]; rfl
      rw [take_step_closedBefore run hentry]
      exact ⟨.inr rfl, h.state, h.quiet.append ⟨rfl, rfl, rfl⟩, h.closed⟩
    · rwa [take_step_exited run]

theorem closedBefore_of_created {task : FetchTask} (created : task.state = .created)
    (shared : Shared ε κ) :
    ((start task shared).take context .close).ClosedBefore where
  run := .inl rfl
  state := by
    change task.state.afterClose = .closed
    rw [created]
    rfl
  quiet := ⟨rfl, rfl, rfl⟩
  closed := List.mem_singleton_self _

/-! ## The outcomes -/

/-- How a bounded read may have ended. -/
inductive Outcome
  | ended
  | rejected
  | closed
deriving DecidableEq

/-- What the sink, the reporter and the task show of an outcome. -/
def Shows (course : Course ε ρ κ) : Outcome → Prop
  | .ended =>
    course.trace.endsTaken.length = 1 ∧ course.trace.reports = [] ∧
      course.run.task.state = .completed
  | .rejected =>
    course.trace.refusals ≠ [] ∧ course.trace.reports.length = 1 ∧ course.trace.endsTaken = [] ∧
      course.run.task.state = .failed
  | .closed =>
    (.waiting ∈ course.closes ∨ .executing ∈ course.closes) ∧ course.trace.refusals = [] ∧
      course.trace.endsTaken = [] ∧ course.run.task.state = .closed

/-- The outcomes are told apart by the state of the task. -/
theorem Shows.unique {course : Course ε ρ κ} {outcome other : Outcome} (h : course.Shows outcome)
    (hother : course.Shows other) : other = outcome := by
  cases outcome <;> cases other <;> simp_all [Shows]

theorem ClosedBefore.shows (h : course.ClosedBefore) : course.Shows .closed :=
  ⟨.inl h.closed, h.quiet.refusals, h.quiet.endsTaken, h.state⟩

theorem Kept.shows {engine : LogEngine ε ρ} (h : course.Kept engine range)
    (exited : course.run.result? = some .ok) : ∃ outcome, course.Shows outcome := by
  obtain ⟨ending, hending, -, hstate, hresult⟩ := h.entered.left_of_result exited
  obtain rfl : ending = .returned := by cases ending <;> first | rfl | cases hresult
  have htally := h.tally
  cases hverdict : course.trace.verdict? range.isBounded with
  | none =>
    rw [hverdict] at hstate htally
    -- The engine has seen a stop, and there is no verdict that could have been it.
    have closed : course.closedInTime = true := by
      rcases h.returned hending with verdict | closed
      · rw [hverdict] at verdict; cases verdict
      · exact closed
    rw [closed] at hstate
    exact ⟨.closed, .inr (of_decide_eq_true closed), htally.2.1, htally.1, hstate⟩
  | some verdict =>
    rw [hverdict] at hstate htally
    cases verdict with
    | completed => exact ⟨.ended, htally.1, htally.2.2, hstate⟩
    | failed => exact ⟨.rejected, htally.2.1, htally.2.2, htally.1, hstate⟩

/-- An engine that keeps its contract reads a bounded task with any sink, and the task is closed at
any time and any number of times. If the first execution returns well, then exactly one of three
things has happened: the sink took one END watermark, or it refused a record and one fatal error was
reported, or the task was closed before it was settled and the sink did neither; and the state of
the task tells which. A close never leaves a task closed whose END was taken, nor one completed
whose END was not. -/
theorem exactly_one_outcome (context : TaskContext ε ρ κ) (keeps : context.engine.KeepsContract)
    {task : FetchTask} (created : task.state = .created) (bounded : task.range.isBounded = true)
    (shared : Shared ε κ) (turns : List Turn) :
    let course := (start task shared).takeAll context turns
    course.run.result? = some .ok →
      (∃! outcome, course.Shows outcome) ∧
        (course.run.task.state = .closed → course.trace.endsTaken = []) ∧
        (course.run.task.state = .completed → course.trace.endsTaken ≠ []) := by
  intro course exited
  have shows : ∃ outcome, course.Shows outcome := by
    cases turns with
    | nil => cases exited
    | cons turn rest =>
      cases turn with
      | step =>
        have kept : course.Kept context.engine task.range :=
          takeAll_invariant (fun _ turn h => h.take context keeps bounded turn)
            (kept_of_created context created shared) rest
        exact kept.shows exited
      | close =>
        have closed : course.ClosedBefore :=
          takeAll_invariant (fun _ turn h => h.take context turn)
            (closedBefore_of_created context created shared) rest
        exact ⟨.closed, closed.shows⟩
  obtain ⟨outcome, houtcome⟩ := shows
  refine ⟨⟨outcome, houtcome, fun _ => houtcome.unique⟩, ?_, ?_⟩
  · intro closed
    cases outcome with
    | ended => rw [houtcome.2.2] at closed; cases closed
    | rejected => exact houtcome.2.2.1
    | closed => exact houtcome.2.2.1
  · intro completed taken
    cases outcome with
    | ended => rw [Shows, taken] at houtcome; cases houtcome.1
    | rejected => rw [houtcome.2.2.2] at completed; cases completed
    | closed => rw [houtcome.2.2.2] at completed; cases completed

/-- A task that is closed while the sink takes the END watermark is completed, and nothing else has
happened. -/
theorem one_outcome_of_close_in_dispatch :
    let context : TaskContext Script ScriptRun PlannedSink :=
      ⟨scriptedEngine, Sink.outlet PlannedSink.sink, .named "ORCLCDB", .ofMillis 1⟩
    let script := Script.ofSteps [.change (Sample.insert "ORDERS" 150), .advance (Sample.scn 250)]
    let course :=
      (start (.create Sample.split) ⟨script, ⟨[], [.closeAndPass], .fresh⟩⟩).takeAll context
      (List.replicate 12 .step)
    context.engine.KeepsContract ∧ (FetchTask.create Sample.split).state = .created ∧
      (FetchTask.create Sample.split).range.isBounded = true ∧ course.run.result? = some .ok ∧
      .executing ∈ course.closes ∧ course.Shows .ended ∧ ¬ course.Shows .closed := by
  intro context script course
  have keeps : context.engine.KeepsContract := scriptedEngine_keepsContract
  have created : (FetchTask.create Sample.split).state = .created := rfl
  have bounded : (FetchTask.create Sample.split).range.isBounded = true := rfl
  have exited : course.run.result? = some .ok := by decide
  have closed : .executing ∈ course.closes := by decide
  have completed : course.run.task.state = .completed := by decide
  obtain ⟨⟨outcome, shows, unique⟩, -⟩ :=
    exactly_one_outcome context keeps created bounded ⟨script, ⟨[], [.closeAndPass], .fresh⟩⟩
      (List.replicate 12 .step) exited
  obtain rfl : outcome = .ended := by
    cases outcome with
    | ended => rfl
    | rejected => cases completed.symm.trans shows.2.2.2
    | closed => cases completed.symm.trans shows.2.2.2
  exact ⟨keeps, created, bounded, exited, closed, shows, fun other => nomatch unique _ other⟩

end Course

end ChangeStream
