import ChangeStream.Engine.Scripted
import ChangeStream.Proofs.Settlement

/-!
# Reading a script to its decisive step

A scripted engine reads on until it comes to a step that ends the read: a failure, a panic,
or, where the range has an end, a position at or after it. The steps before that one do what
they say and leave the read as it was. The engine takes no step after it; those that are left
stay in the script.
-/

namespace ChangeStream

variable {ε ρ κ : Type}

/-! ## Executions that are left to themselves -/

namespace Execution

/-- Some steps of an execution that nobody else interferes with, and the errors reported by them. -/
inductive Runs (engine : LogEngine ε ρ) (outlet : Outlet κ) :
    Execution ρ → Shared ε κ → List FetchError → Execution ρ → Shared ε κ → Prop
  | refl (x : Execution ρ) (shared : Shared ε κ) : Runs engine outlet x shared [] x shared
  | step {x middle last : Execution ρ} {shared between after : Shared ε κ} {trace : Trace}
      {reports : List FetchError}
      (working : x.ending = none) (step : x.step engine outlet shared = (middle, between, trace))
      (rest : Runs engine outlet middle between reports last after) :
      Runs engine outlet x shared (trace.reports ++ reports) last after

variable {engine : LogEngine ε ρ} {outlet : Outlet κ} {x middle last : Execution ρ}
  {shared between after : Shared ε κ} {reports more : List FetchError}

theorem Runs.trans (first : Runs engine outlet x shared reports middle between)
    (rest : Runs engine outlet middle between more last after) :
    Runs engine outlet x shared (reports ++ more) last after := by
  induction first with
  | refl => exact rest
  | step working step _ ih =>
    rw [List.append_assoc]
    exact .step working step (ih rest)

theorem Runs.answer {record : Record} {reply : Reply} {state : κ} (working : x.ending = none)
    (offered : x.offered = some record) (answered : outlet shared.sink record = some (reply, state))
    (rest :
      Runs engine outlet (x.answer record reply).1 { shared with sink := state } reports last
        after) :
    Runs engine outlet x shared ((x.answer record reply).2.reports ++ reports) last after :=
  .step working (step_of_answer working offered answered) rest

theorem Runs.move {move : Move} {progress : ρ} {state : ε} (working : x.ending = none)
    (idle : x.offered = none)
    (next : engine.next x.reading.run.stopReason x.progress shared.engine = (move, progress, state))
    (silent : ({ x with progress }.perform move).2.reports = [])
    (rest :
      Runs engine outlet ({ x with progress }.perform move).1 { shared with engine := state }
        reports last after) :
    Runs engine outlet x shared reports last after := by
  have runs := Runs.step working (step_of_move working idle next) rest
  rwa [silent, List.nil_append] at runs

/-- A course goes the way of its execution, as long as the engine is at work. -/
theorem Runs.takeAll {context : TaskContext ε ρ κ}
    (runs : Runs context.engine context.outlet x shared reports last after) (course : Course ε ρ κ)
    (run : course.run = .executing x) (same : course.shared = shared) :
    ∃ steps, let later := course.takeAll context (List.replicate steps .step)
      later.run = .executing last ∧ later.shared = after ∧
        later.trace.reports = course.trace.reports ++ reports := by
  induction runs generalizing course with
  | refl => exact ⟨0, run, same, (List.append_nil _).symm⟩
  | @step x middle last shared between after trace reports working step rest ih =>
    subst same
    have htake : course.take context .step = _ := Course.take_step_working run working
    rw [step] at htake
    obtain ⟨steps, hrun, hshared, hreports⟩ :=
      ih (course.take context .step) (by rw [htake]) (by rw [htake])
    refine ⟨steps + 1, hrun, hshared, ?_⟩
    rw [List.replicate_succ, Course.takeAll_cons, hreports, htake, Trace.reports_append,
      List.append_assoc]

end Execution

namespace Course

variable {context : TaskContext ε ρ κ} {course : Course ε ρ κ}

/-- Two steps after the engine has left, the task is settled for good. -/
theorem exited_of_left {range : Range} {x : Execution ρ} {ending : Ending}
    (entered : course.Entered range) (run : course.run = .executing x)
    (left : x.ending = some ending) (context : TaskContext ε ρ κ) :
    ∃ task : FetchTask, task.running = false ∧
      task.state = ending.settles x.reading.run.verdict (!x.reading.run.running) ∧
      ∀ steps, 2 ≤ steps → let last := course.takeAll context (List.replicate steps .step)
        last.run = .exited task ending.result ∧ last.shared = course.shared ∧
          last.trace.reports = course.trace.reports := by
  obtain ⟨reflects, -⟩ := (entered_iff_reflects run).mp entered
  obtain ⟨task, running, state, form⟩ := reflects.leave ending
  obtain ⟨events, hlogs⟩ := TaskRun.leave_logs (ρ := ρ) x.reading ending
  rw [← reflects.verdict, ← Bool.not_not course.closedInTime, ← reflects.flag] at state
  have terminal : task.state.isTerminal = true := by
    rw [state]
    exact ending.settles_terminal _ _
  have leaves : course.take context .step = _ := take_step_leaving run left
  have reports : (course.take context .step).trace.reports = course.trace.reports := by
    rw [leaves, hlogs, Trace.reports_append, Trace.reports_ofLogs, List.append_nil]
  have shared : (course.take context .step).shared = course.shared := by rw [leaves]
  rcases form with settled | exited
  · have settledRun : (course.take context .step).run = .settled task ending.result := by
      rw [leaves, settled]
    have releases : (course.take context .step).take context .step = _ :=
      take_step_settled settledRun
    refine ⟨task.release.1, task.release_running,
      (FetchTask.release_state_of_isTerminal terminal).trans state, ?_⟩
    intro steps enough
    obtain ⟨more, rfl⟩ := Nat.exists_eq_add_of_le' enough
    have exitedRun : ((course.take context .step).take context .step).run =
        .exited task.release.1 ending.result := by
      rw [releases]
    obtain ⟨released, hreleased⟩ := task.release_logs
    rw [List.replicate_succ, List.replicate_succ, takeAll_cons, takeAll_cons,
      takeAll_of_exited exitedRun]
    refine ⟨exitedRun, by rw [releases, shared], ?_⟩
    rw [releases, hreleased]
    simp only [Trace.reports_append, Trace.reports_ofLogs, reports]
    exact List.append_nil _
  · have exitedRun : (course.take context .step).run = .exited task ending.result := by
      rw [leaves, exited]
    refine ⟨task, running, state, ?_⟩
    intro steps enough
    obtain ⟨more, rfl⟩ := Nat.exists_eq_add_of_le' enough
    rw [List.replicate_succ, takeAll_cons, takeAll_of_exited exitedRun]
    exact ⟨exitedRun, shared, reports⟩

/-- A task that is left to itself while its engine works and leaves comes to an end,
and stays there. -/
theorem exits_of_runs {range : Range} {x last : Execution ρ} {ending : Ending}
    {after : Shared ε κ} {reports : List FetchError} (entered : course.Entered range)
    (run : course.run = .executing x)
    (runs : Execution.Runs context.engine context.outlet x course.shared reports last after)
    (left : last.ending = some ending) :
    ∃ task : FetchTask, task.running = false ∧
      task.state = ending.settles last.reading.run.verdict (!last.reading.run.running) ∧
      ∃ count, ∀ steps, count ≤ steps →
        let final := course.takeAll context (List.replicate steps .step)
        final.run = .exited task ending.result ∧ final.shared = after ∧
          final.trace.reports = course.trace.reports ++ reports := by
  obtain ⟨steps, hrun, hshared, hreports⟩ := runs.takeAll course run rfl
  have hentered : (course.takeAll context (List.replicate steps .step)).Entered range :=
    takeAll_invariant (fun _ turn h => h.take context turn) entered _
  obtain ⟨task, running, state, exits⟩ := exited_of_left hentered hrun left context
  refine ⟨task, running, state, steps + 2, ?_⟩
  intro count enough
  obtain ⟨more, rfl⟩ := Nat.exists_eq_add_of_le enough
  obtain ⟨exited, shared, traced⟩ := exits (2 + more) (Nat.le_add_right 2 more)
  rw [Nat.add_assoc, ← List.replicate_append_replicate, takeAll_append]
  exact ⟨exited, shared.trans hshared, traced.trans hreports⟩

end Course

/-! ## The steps of a script -/

namespace Step

/-- The change that a step signals. -/
def change? : Step → Option Change
  | change event => some event
  | advance _ | fail _ | idle | stall | panic _ => none

/-- Whether a step reports a position. -/
def isAdvance : Step → Bool
  | advance _ => true
  | change _ | fail _ | idle | stall | panic _ => false

/-- Whether the engine blocks in a step. -/
def isStall : Step → Bool
  | stall => true
  | change _ | advance _ | fail _ | idle | panic _ => false

/-- Whether a step ends the read of a range: the engine fails or panics, or comes to the end
of the range. -/
def isDecisive (range : Range) : Step → Bool
  | fail _ | panic _ => true
  | advance position => range.stop.position?.any fun stop => position.hasReached stop
  | change _ | idle | stall => false

end Step

/-- How a read comes out. -/
structure ReadEnd where
  result : TaskResult
  state : TaskState
  /-- The records that the sink takes at the end. -/
  records : List Record
  /-- How many watermarks the sink is handed. -/
  watermarks : Nat
  reports : List FetchError

/-- What a step that ends the read of a range makes of it, the sink refusing the
watermark or not. -/
def Step.readEnd? (range : Range) (refuses : Bool) : Step → Option ReadEnd
  | advance position =>
    some
      (if refuses then ⟨.ok, .failed, [], 1, [.dispatch range.id .watermark .interrupted]⟩
      else ⟨.ok, .completed, [.watermark ⟨range.id, position, .ending⟩], 1, []⟩)
  | fail reason => some ⟨.error (.engine (.failed reason)), .failed, [], 0, []⟩
  | panic message => some ⟨.panicked message, .failed, [], 0, []⟩
  | change _ | idle | stall => none

/-- The script after some of its steps, the others being left. -/
def Script.having (script : Script) (taken rest : List Step) : Script :=
  { script with
    steps := rest
    advances := script.advances + taken.countP Step.isAdvance
    stalls := script.stalls + taken.countP Step.isStall }

/-- The records of the changes that some steps signal. -/
def Range.changes (range : Range) (steps : List Step) : List Record :=
  (steps.filterMap Step.change?).map (.change range.id)

/-- The recorder after it has taken some more records. -/
def Recorder.keepAll (sink : Recorder) (records : List Record) : Recorder :=
  { sink with kept := records.reverse ++ sink.kept }

theorem Script.having_having (script : Script) (first second middle rest : List Step) :
    (script.having first middle).having second rest = script.having (first ++ second) rest := by
  simp only [having, List.countP_append, Nat.add_assoc]

theorem Recorder.keepAll_keepAll (sink : Recorder) (first second : List Record) :
    (sink.keepAll first).keepAll second = sink.keepAll (first ++ second) := by
  simp only [keepAll, List.reverse_append, List.append_assoc]

@[simp] theorem Recorder.records_keepAll (sink : Recorder) (records : List Record) :
    (sink.keepAll records).records = sink.records ++ records := by
  simp [keepAll, Recorder.records]

theorem Range.changes_append (range : Range) (first second : List Step) :
    range.changes (first ++ second) = range.changes first ++ range.changes second := by
  simp [changes]

namespace ScriptedRead

open Execution (Runs)

/-- Sinks that record have room for everything. -/
abbrev recording : Outlet Recorder := Sink.outlet Recorder.sink

/-- A scripted execution between two moves. -/
def between (reading : Reading) (run : ScriptRun) (phase : ScriptPhase) : Execution ScriptRun :=
  { reading, offered := none, progress := run.inPhase phase, ending := none }

variable {reading : Reading} {run : ScriptRun} {script : Script} {sink state : Recorder}
  {step : Step} {rest : List Step} {record : Record} {reply : Reply} {last : Execution ScriptRun}
  {shared after : Shared Script Recorder} {reports : List FetchError}

/-- The engine looks at the context of a running read and goes on to the next step of its script. -/
theorem runs_looking (running : reading.run.stopReason = none) (more : shared.engine.steps ≠ [])
    (runs : Runs scriptedEngine recording (between reading run .taking) shared reports last after) :
    Runs scriptedEngine recording (between reading run .looking) shared reports last after := by
  have next : scriptedEngine.next reading.run.stopReason (run.inPhase .looking) shared.engine =
      (.idle, run.inPhase .taking, shared.engine) := by
    simp [scriptedEngine, ScriptRun.next, running, Script.isUsedUp, more, ScriptRun.inPhase]
  exact .move rfl rfl next rfl runs

theorem runs_answer (answered : Recorder.sink sink record = (reply, state))
    (runs :
      Runs scriptedEngine recording (between (reading.conclude record reply).1 run .looking)
        ⟨script, state⟩ reports last after) :
    Runs scriptedEngine recording { between reading run .looking with offered := some record }
      ⟨script, sink⟩
      ((reading.conclude record reply).2.reports ++ reports) last after :=
  .answer rfl rfl (congrArg some answered) runs

/-- The engine signals, and the record that is offered waits for the sink. -/
theorem runs_signal {signal : Signal} {next : Script}
    (takes : (run.inPhase .taking).takeStep { script with steps := step :: rest } =
      (.signal signal, run.inPhase .looking, next))
    (runs :
      Runs scriptedEngine recording
        { between reading run .looking with offered := (reading.offer? signal).1 } ⟨next, sink⟩
        reports last after) :
    Runs scriptedEngine recording (between reading run .taking)
      ⟨{ script with steps := step :: rest }, sink⟩ reports
      last after :=
  .move rfl rfl takes (Trace.reports_ofLogs _) runs

/-! ### Steps that leave the read as it is -/

theorem offer?_undecided {position : Position}
    (undecided : (Step.advance position).isDecisive reading.range = false) :
    (reading.offer? (.advance position)).1 = none := by
  cases hstop : reading.range.stop with
  | noStopping => exact reading.offer?_advance_unbounded hstop position
  | bounded stop =>
    rw [Step.isDecisive, hstop, RangeEnd.position?, Option.any_some] at undecided
    rw [reading.offer?_advance hstop, undecided, Bool.and_false]
    rfl

theorem runs_undecided (running : reading.run.stopReason = none)
    (undecided : step.isDecisive reading.range = false) (more : rest ≠ []) :
    Runs scriptedEngine recording (between reading run .taking)
      ⟨{ script with steps := step :: rest }, sink⟩ []
      (between reading run .taking)
        ⟨script.having [step] rest, sink.keepAll (reading.range.changes [step])⟩ := by
  have looking : Runs scriptedEngine recording (between reading run .looking)
      ⟨script.having [step] rest, sink.keepAll (reading.range.changes [step])⟩ []
        (between reading run .taking)
      ⟨script.having [step] rest, sink.keepAll (reading.range.changes [step])⟩ :=
    runs_looking running more (.refl _ _)
  cases step with
  | fail reason => cases undecided
  | panic message => cases undecided
  | stall => exact .move rfl rfl rfl rfl (.refl _ _)
  | idle => exact .move rfl rfl rfl rfl looking
  | advance position =>
    apply runs_signal rfl
    rw [offer?_undecided undecided]
    exact looking
  | change event =>
    have offered : (reading.offer? (.change event)).1 = some (.change reading.range.id event) := by
      rw [reading.offer?_change, RunContext.isRunning, running]
      rfl
    apply runs_signal rfl
    rw [offered]
    exact runs_answer rfl looking

/-- The engine takes the steps before a decisive one. -/
theorem runs_before {before : List Step} (running : reading.run.stopReason = none)
    (undecided : ∀ step ∈ before, step.isDecisive reading.range = false) (more : rest ≠ []) :
    Runs scriptedEngine recording (between reading run .taking)
      ⟨{ script with steps := before ++ rest }, sink⟩ []
      (between reading run .taking)
        ⟨script.having before rest, sink.keepAll (reading.range.changes before)⟩ := by
  induction before generalizing script sink with
  | nil => exact .refl _ _
  | cons step before ih =>
    obtain ⟨first, others⟩ := List.forall_mem_cons.mp undecided
    have runs := @ih (script.having [step] (before ++ rest))
      (sink.keepAll (reading.range.changes [step])) others
    rw [Script.having_having, Recorder.keepAll_keepAll, ← Range.changes_append] at runs
    exact (runs_undecided running first (by simp [more])).trans runs

/-! ### The step that ends the read -/

theorem runs_stopped {reason : StopReason} (stopped : reading.run.stopReason = some reason) :
    Runs scriptedEngine recording (between reading run .looking) shared []
      { between reading run .leaving with ending := some .returned } shared := by
  have next : scriptedEngine.next reading.run.stopReason (run.inPhase .looking) shared.engine =
      (.log (.scriptStopped run.source.name (some reason)), run.inPhase .leaving,
        shared.engine) := by
    simp [scriptedEngine, ScriptRun.next, stopped, ScriptRun.inPhase]
  exact .move rfl rfl next rfl (.move rfl rfl rfl rfl (.refl _ _))

theorem offer?_decided {position : Position} (running : reading.run.stopReason = none)
    (decisive : (Step.advance position).isDecisive reading.range = true) :
    (reading.offer? (.advance position)).1 =
      some (.watermark ⟨reading.range.id, position, .ending⟩) ∧
      reading.range.isBounded = true := by
  cases hstop : reading.range.stop with
  | noStopping =>
    rw [Step.isDecisive, hstop] at decisive
    cases decisive
  | bounded stop =>
    rw [Step.isDecisive, hstop, RangeEnd.position?, Option.any_some] at decisive
    rw [reading.offer?_advance hstop, RunContext.isRunning, running, decisive,
      Range.isBounded, hstop]
    exact ⟨rfl, rfl⟩

/-- The answer to the END watermark gives the read its verdict, and the engine returns. -/
theorem runs_to_end (run : ScriptRun) (script : Script) (sink : Recorder) (rest : List Step)
    {position : Position} {verdict : Verdict} (running : reading.run.stopReason = none)
    (decisive : (Step.advance position).isDecisive reading.range = true)
    (answered : Recorder.sink sink (.watermark ⟨reading.range.id, position, .ending⟩) =
      (reply, state))
    (decided :
      (reading.conclude (.watermark ⟨reading.range.id, position, .ending⟩) reply).1.run.verdict =
        some verdict) :
    Runs scriptedEngine recording (between reading run .taking)
      ⟨{ script with steps := .advance position :: rest }, sink⟩
      (reading.conclude (.watermark ⟨reading.range.id, position, .ending⟩) reply).2.reports
      { between (reading.conclude (.watermark ⟨reading.range.id, position, .ending⟩) reply).1
        run .leaving with
        ending := some .returned }
      ⟨script.having [.advance position] rest, state⟩ := by
  apply runs_signal rfl
  rw [(offer?_decided running decisive).1]
  rw [← List.append_nil (Trace.reports _)]
  exact runs_answer answered (runs_stopped (RunContext.stopReason_of_verdict _ decided))

theorem runs_decisive (run : ScriptRun) (script : Script) (rest : List Step) {ending : ReadEnd}
    (running : reading.run.stopReason = none)
    (kind : reading.run.kind = reading.range.contextKind)
    (decisive : step.isDecisive reading.range = true)
    (comes : step.readEnd? reading.range (0 < sink.refusals) = some ending) :
    ∃ last how,
      Runs scriptedEngine recording (between reading run .taking)
        ⟨{ script with steps := step :: rest }, sink⟩
        ending.reports last
        ⟨script.having [step] rest,
          { sink.keepAll ending.records with
            refusals := sink.refusals - ending.watermarks
            attempts := sink.attempts + ending.watermarks }⟩ ∧
      last.ending = some how ∧ how.result = ending.result ∧
      how.settles last.reading.run.verdict (!last.reading.run.running) = ending.state := by
  cases step with
  | change event => cases decisive
  | idle => cases decisive
  | stall => cases decisive
  | fail reason =>
    obtain rfl := Option.some.inj comes
    exact ⟨_, .failed (.failed reason), .move rfl rfl rfl rfl (.refl _ _), rfl, rfl, rfl⟩
  | panic message =>
    obtain rfl := Option.some.inj comes
    exact ⟨_, .panicked message, .move rfl rfl rfl rfl (.refl _ _), rfl, rfl, rfl⟩
  | advance position =>
    have undecided := ((RunContext.stopReason_eq_none_iff _).mp running).1
    have completion : reading.run.kind.finishVerdict = some .completed := by
      rw [kind, Range.finishVerdict_contextKind, (offer?_decided running decisive).2]
      rfl
    obtain ⟨kept, refusals, attempts⟩ := sink
    cases refusals with
    | zero =>
      obtain rfl := Option.some.inj comes
      have decided :
          (reading.conclude (.watermark ⟨reading.range.id, position, .ending⟩)
            .accepted).1.run.verdict =
            some .completed := by
        rw [Reading.conclude_eq, undecided, Option.none_or]
        exact completion
      have runs := runs_to_end run script ⟨kept, 0, attempts⟩ rest running decisive rfl decided
      rw [Reading.conclude_reports] at runs
      exact ⟨_, .returned, runs, rfl, rfl, congrArg (Ending.returned.settles · _) decided⟩
    | succ left =>
      obtain rfl := Option.some.inj comes
      have decided :
          (reading.conclude (.watermark ⟨reading.range.id, position, .ending⟩)
            (.refused .interrupted)).1.run.verdict =
            some .failed := by
        rw [Reading.conclude_eq, undecided, Option.none_or]
        rfl
      have runs :=
        runs_to_end run script ⟨kept, left + 1, attempts⟩ rest running decisive rfl decided
      rw [Reading.conclude_reports] at runs
      exact ⟨_, .returned, runs, rfl, rfl, congrArg (Ending.returned.settles · _) decided⟩

/-! ### Whole reads -/

/-- The execution of a task, from the call of the engine to its leaving. -/
theorem runs_to_decisive (run : ScriptRun) (script : Script) (rest : List Step) {ending : ReadEnd}
    {before : List Step} (running : reading.run.stopReason = none)
    (kind : reading.run.kind = reading.range.contextKind)
    (undecided : ∀ step ∈ before, step.isDecisive reading.range = false)
    (decisive : step.isDecisive reading.range = true)
    (comes : step.readEnd? reading.range (0 < sink.refusals) = some ending) :
    ∃ last how,
      Runs scriptedEngine recording (between reading run .entering)
        ⟨{ script with steps := before ++ step :: rest }, sink⟩ ending.reports last
        ⟨script.having (before ++ [step]) rest,
          { sink.keepAll (reading.range.changes before ++ ending.records) with
            refusals := sink.refusals - ending.watermarks
            attempts := sink.attempts + ending.watermarks }⟩ ∧
      last.ending = some how ∧ how.result = ending.result ∧
      how.settles last.reading.run.verdict (!last.reading.run.running) = ending.state := by
  have comes' :
      step.readEnd? reading.range (0 < (sink.keepAll (reading.range.changes before)).refusals) =
      some ending := comes
  obtain ⟨last, how, runs, left, result, settles⟩ :=
    runs_decisive run (script.having before (step :: rest)) rest running kind decisive comes'
  rw [Script.having_having] at runs
  rw [← Recorder.keepAll_keepAll]
  refine ⟨last, how, ?_, left, result, settles⟩
  have taking : Runs scriptedEngine recording (between reading run .taking)
      ⟨{ script with steps := before ++ step :: rest }, sink⟩ ending.reports last _ :=
    (runs_before running undecided (by simp)).trans runs
  exact .move rfl rfl rfl rfl (runs_looking running (by simp) taking)

theorem exists_readEnd (range : Range) (refuses : Bool) (decisive : step.isDecisive range = true) :
    ∃ ending, step.readEnd? range refuses = some ending := by
  cases step with
  | advance position => exact ⟨_, rfl⟩
  | fail reason => exact ⟨_, rfl⟩
  | panic message => exact ⟨_, rfl⟩
  | change event => cases decisive
  | idle => cases decisive
  | stall => cases decisive

/-- A task that nobody closes is executed with a script whose first decisive step is the one at
`k`. The execution comes to an end. It has taken the steps up to that one, the others are left,
and it has counted the positions and the stalls among them. The sink has taken the changes of
the steps before, in order and with the id of the range. The rest is what the decisive step
makes of the read. -/
theorem ends_at_decisive_step (range : Range) (script : Script) (recorder : Recorder)
    (source : Source) (pollInterval : Duration) {k : Nat}
    (first : script.steps.findIdx? (Step.isDecisive range) = some k) :
    ∃ ending count,
      (script.steps[k]?.bind fun step => step.readEnd? range (0 < recorder.refusals)) =
        some ending ∧
      ∀ steps, count ≤ steps →
        let course := (Course.start (.create range) ⟨script, recorder⟩).takeAll
          ⟨scriptedEngine, recording, source, pollInterval⟩ (List.replicate steps .step)
        course.run.result? = some ending.result ∧ course.run.task.state = ending.state ∧
          course.run.task.running = false ∧
          course.shared.engine =
            { script with
              steps := script.steps.drop (k + 1)
              executions := script.executions + 1
              starts := script.starts ++ [range.start]
              advances := script.advances + (script.steps.take (k + 1)).countP Step.isAdvance
              stalls := script.stalls + (script.steps.take (k + 1)).countP Step.isStall } ∧
          course.shared.sink.records =
            recorder.records ++ range.changes (script.steps.take k) ++ ending.records ∧
          course.shared.sink.attempts = recorder.attempts + ending.watermarks ∧
          course.shared.sink.refusals = recorder.refusals - ending.watermarks ∧
          course.trace.reports = ending.reports := by
  obtain ⟨within, decisive, earlier⟩ := List.findIdx?_eq_some_iff_getElem.mp first
  obtain ⟨ending, comes⟩ := exists_readEnd range (decide (0 < recorder.refusals)) decisive
  have undecided : ∀ step ∈ script.steps.take k, step.isDecisive range = false := by
    intro step member
    obtain ⟨j, hj, rfl⟩ := List.mem_take_iff_getElem.mp member
    exact Bool.eq_false_iff.mpr (earlier j (by omega))
  have split : script.steps =
      script.steps.take k ++ script.steps[k] :: script.steps.drop (k + 1) := by
    rw [List.getElem_cons_drop, List.take_append_drop]
  have taken : script.steps.take (k + 1) = script.steps.take k ++ [script.steps[k]] :=
    List.take_succ_eq_append_getElem within
  let context : TaskContext Script ScriptRun Recorder :=
    ⟨scriptedEngine, recording, source, pollInterval⟩
  let begun : Script :=
    { script with executions := script.executions + 1, starts := script.starts ++ [range.start] }
  obtain ⟨last, how, runs, left, result, settles⟩ :=
    @runs_to_decisive ((FetchTask.create range).reading pollInterval) recorder _
      ⟨source, range.start, .entering⟩ begun
      (script.steps.drop (k + 1)) ending _ rfl rfl undecided decisive comes
  rw [← split, ← taken] at runs
  -- The task calls the engine, and from there on it is left to itself.
  let entered : Course Script ScriptRun Recorder :=
    (Course.start (.create range) ⟨script, recorder⟩).take context .step
  have work : Runs context.engine context.outlet _ _ _ _ _ := runs
  obtain ⟨task, running, state, count, exits⟩ :=
    @Course.exits_of_runs _ _ _ context entered _ _ _ _ _ _
      (Course.entered_of_created rfl context _) rfl work left
  refine ⟨ending, count + 1, ?_, ?_⟩
  · rw [List.getElem?_eq_getElem within]
    exact comes
  · intro steps enough course
    obtain ⟨steps, rfl⟩ := Nat.exists_eq_add_of_le' (Nat.le_trans (Nat.le_add_left 1 count) enough)
    obtain ⟨exited, shared, reports⟩ := exits steps (Nat.le_of_succ_le_succ enough)
    have hcourse : course = entered.takeAll context (List.replicate steps .step) := by
      rw [← Course.takeAll_cons, ← List.replicate_succ]
    rw [← hcourse] at exited shared reports
    refine ⟨?_, ?_, ?_, ?_, ?_, ?_, ?_, ?_⟩
    · rw [exited, ← result]
      rfl
    · rw [exited]
      exact state.trans settles
    · rw [exited]
      exact running
    · rw [shared]
      rfl
    · rw [shared, List.append_assoc]
      exact Recorder.records_keepAll _ _
    · rw [shared]
    · rw [shared]
    · exact reports

/-- A script with a stall, read by a task of the split from 100 to 200 into a sink that refuses one
watermark: the read ends with the position 250. A second task goes on with the change after it and
ends with the failure. -/
theorem ends_at_250_and_goes_on :
    let script := Script.ofSteps
      [.change (Sample.insert "ORDERS" 110), .stall, .advance (Sample.scn 199), .idle,
        .advance (Sample.scn 250),
        .change (Sample.insert "ORDERS" 260), .stall, .fail "ORA-01013", .advance (Sample.scn 300)]
    let context : TaskContext Script ScriptRun Recorder :=
      ⟨scriptedEngine, recording, .named "ORCLCDB", .ofMillis 1⟩
    script.steps.findIdx? (Step.isDecisive Sample.split) = some 4 ∧
      ∃ count, ∀ steps, count ≤ steps →
        let first := (Course.start (.create Sample.split) ⟨script, .refusing 1⟩).takeAll context
          (List.replicate steps .step)
        first.run.result? = some .ok ∧ first.run.task.state = .failed ∧
          first.shared.sink.records = [.change ⟨"split-0"⟩ (Sample.insert "ORDERS" 110)] ∧
          first.trace.reports = [.dispatch ⟨"split-0"⟩ .watermark .interrupted] ∧
          ∃ count, ∀ steps, count ≤ steps →
            let second := (Course.start (.create Sample.split) first.shared).takeAll context
              (List.replicate steps .step)
            second.run.result? = some (.error (.engine (.failed "ORA-01013"))) ∧
              second.shared.engine.steps = [.advance (Sample.scn 300)] ∧
                second.shared.engine.stalls = 2 ∧
              second.shared.sink.records =
                [.change ⟨"split-0"⟩ (Sample.insert "ORDERS" 110),
                  .change ⟨"split-0"⟩ (Sample.insert "ORDERS" 260)] := by
  intro script context
  have at250 : script.steps.findIdx? (Step.isDecisive Sample.split) = some 4 := by decide
  obtain ⟨ending, count, comes, ends⟩ :=
    ends_at_decisive_step Sample.split script (.refusing 1) (.named "ORCLCDB") (.ofMillis 1) at250
  obtain rfl := Option.some.inj comes
  refine ⟨at250, count, ?_⟩
  intro steps enough first
  obtain ⟨result, state, -, engine, records, -, -, reports⟩ := ends steps enough
  refine ⟨result, state, records, reports, ?_⟩
  have atFailure : first.shared.engine.steps.findIdx? (Step.isDecisive Sample.split) = some 2 := by
    rw [engine]
    decide
  obtain ⟨ending, count, comes, ends⟩ :=
    ends_at_decisive_step Sample.split first.shared.engine first.shared.sink (.named "ORCLCDB")
      (.ofMillis 1) atFailure
  rw [engine] at comes
  obtain rfl := Option.some.inj comes
  refine ⟨count, ?_⟩
  intro steps enough second
  obtain ⟨result, -, -, engine', records', -⟩ := ends steps enough
  refine ⟨result, ?_, ?_, ?_⟩
  · rw [engine', engine]
    rfl
  · rw [engine', engine]
    rfl
  · rw [records', records, engine]
    rfl

end ScriptedRead

end ChangeStream
