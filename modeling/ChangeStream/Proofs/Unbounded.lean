import ChangeStream.Proofs.Agreement
import ChangeStream.Proofs.LastAttempt

/-!
# Reads without an end

A range without an end is read until somebody else puts an end to it. No position makes such a
read hand over a watermark, and its context takes no verdict of completion, however often the
engine finishes it. What can stop it is a close of the task, a change that the sink refuses, or
a failure that the engine calls. If the task is completed all the same, its engine has returned
of its own accord.
-/

namespace ChangeStream

variable {ε ρ κ : Type}

/-! ## The only verdict -/

/-- Whether an occurrence fails a read: the sink has refused a record, or the engine has
failed the read. -/
def Occurrence.fails : Occurrence → Bool
  | .dispatched _ refusal => refusal.isSome
  | .failCalled _ => true
  | .logged _ | .reported _ | .entered .. | .observed _ | .finishCalled _ | .roundTaken ..
  | .executedAgain _ => false

theorem Occurrence.verdict?_unbounded (occurrence : Occurrence) :
    occurrence.verdict? false = if occurrence.fails then some .failed else none := by
  cases occurrence with
  | dispatched record refusal => cases refusal <;> rfl
  | _ => rfl

theorem Trace.verdict?_unbounded (trace : Trace) :
    trace.verdict? false = if trace.any Occurrence.fails then some .failed else none := by
  induction trace with
  | nil => rfl
  | cons occurrence rest ih =>
    rw [verdict?, List.findSome?_cons, Occurrence.verdict?_unbounded, List.any_cons]
    cases occurrence.fails with
    | true => rfl
    | false => exact ih

/-- A range without an end has changes to hand over, and nothing else. -/
theorem Range.Offers.change_of_unbounded {id : SplitId} {first : Position} {record : Record}
    (offers : (Range.unbounded id first).Offers record) : ∃ event, record = .change id event := by
  cases record with
  | change split event =>
    obtain rfl : split = id := offers
    exact ⟨event, rfl⟩
  | watermark event =>
    obtain ⟨-, -, stop, bounded, -⟩ := offers
    cases bounded

theorem Execution.Reflects.stopReason_of_unbounded {x : Execution ρ} {range : Range}
    {trace : Trace} {closed : Bool} (h : x.Reflects range trace closed)
    (unbounded : range.isBounded = false) :
    x.reading.run.stopReason =
      if trace.any Occurrence.fails then some .failed else
        if closed then some .closed else none := by
  have verdict := h.verdict
  rw [unbounded, Trace.verdict?_unbounded] at verdict
  rw [RunContext.stopReason, verdict, h.flag]
  cases trace.any Occurrence.fails <;> cases closed <;> rfl

/-! ## Whence a return comes -/

namespace Execution

variable {engine : LogEngine ε ρ} {outlet : Outlet κ} {x x' : Execution ρ}
  {shared shared' : Shared ε κ} {deed : Deed} {more : Trace}

theorem deed_eq_move {move : Move} (moves : x.deed engine outlet shared = .move move) :
    x.ending = none ∧ (engine.next x.reading.run.stopReason x.progress shared.engine).1 = move := by
  cases working : x.ending with
  | some ending =>
    simp only [deed, working] at moves
    cases moves
  | none =>
    cases offered : x.offered with
    | none =>
      simp only [deed, working, offered] at moves
      exact ⟨rfl, Deed.move.inj moves⟩
    | some record =>
      simp only [deed, working, offered] at moves
      split at moves <;> cases moves

/-- The engine leaves by a move of its own. -/
theorem Step.left (step : Step engine outlet x shared deed x' shared' more)
    (working : x.ending = none) {ending : Ending} (left : x'.ending = some ending) :
    deed = .move (.leave ending) := by
  cases step with
  | nothing => cases working.symm.trans left
  | answer offered answered => cases working.symm.trans left
  | @move move progress state offered next =>
    cases move with
    | leave how =>
      obtain rfl : how = ending := Option.some.inj left
      rfl
    | _ => cases working.symm.trans left

/-- An engine that has not been told of a stop is not told of one while the read runs. -/
theorem Step.untold (step : Step engine outlet x shared deed x' shared' more)
    (running : x.reading.run.stopReason = none)
    (reached : engine.Reached false x.progress shared.engine) :
    x'.ending = none → engine.Reached false x'.progress shared'.engine := by
  intro staying
  cases step with
  | nothing => exact reached
  | answer offered answered => exact reached
  | @move move progress state offered next =>
    have later := reached_of_move reached next staying
    rwa [running] at later

end Execution

theorem TaskRun.executing_of_deed {context : TaskContext ε ρ κ} {run : TaskRun ρ}
    {shared : Shared ε κ} {move : Move} (moves : run.deed context shared = .move move) :
    ∃ x, run = .executing x := by
  cases run with
  | executing x => exact ⟨x, rfl⟩
  | starting | settled | exited => cases moves

namespace Course

variable {context : TaskContext ε ρ κ} {course : Course ε ρ κ} {range : Range}

theorem Entered.left_by_turn (entered : course.Entered range) (staying : course.ending = none)
    {turn : Turn} {ending : Ending} (left : (course.take context turn).ending = some ending) :
    turn = .step ∧ course.run.deed context course.shared = .move (.leave ending) := by
  cases turn with
  | close => cases staying.symm.trans left
  | step =>
    refine ⟨rfl, ?_⟩
    cases hrun : course.run with
    | starting task => exact absurd hrun (entered.not_starting task)
    | settled task result =>
      rw [(later_of_settled hrun context .step).ending] at left
      cases staying.symm.trans left
    | exited task result =>
      rw [(later_of_exited hrun context .step).ending] at left
      cases staying.symm.trans left
    | executing x =>
      have working : x.ending = none :=
        ((entered_iff_reflects hrun).mp entered).2.symm.trans staying
      rw [take_step_working hrun working] at left
      simp only [staying, Option.or_none] at left
      exact (x.step_spec context.engine context.outlet course.shared).left working left

theorem Entered.take_ending (entered : course.Entered range) {ending : Ending}
    (left : course.ending = some ending) (context : TaskContext ε ρ κ) (turn : Turn) :
    (course.take context turn).ending = some ending := by
  cases turn with
  | close => exact left
  | step =>
    cases hrun : course.run with
    | starting task => exact absurd hrun (entered.not_starting task)
    | executing x =>
      have gone : x.ending = some ending :=
        ((entered_iff_reflects hrun).mp entered).2.symm.trans left
      exact (later_of_leaving hrun gone).ending.trans left
    | settled task result => exact (later_of_settled hrun context .step).ending.trans left
    | exited task result => exact (later_of_exited hrun context .step).ending.trans left

theorem Entered.takeAll_ending (entered : course.Entered range) {ending : Ending}
    (left : course.ending = some ending) (context : TaskContext ε ρ κ) (turns : List Turn) :
    (course.takeAll context turns).ending = some ending := by
  induction turns generalizing course with
  | nil => exact left
  | cons turn rest ih =>
    exact ih (entered.take context turn) (entered.take_ending left context turn)

/-- If the engine has left, there was a turn at which it made the move to leave. -/
theorem Entered.left_at (entered : course.Entered range) (staying : course.ending = none)
    {turns : List Turn} {ending : Ending}
    (left : (course.takeAll context turns).ending = some ending) :
    ∃ before after, turns = before ++ .step :: after ∧
      let here := course.takeAll context before
      here.run.deed context here.shared = .move (.leave ending) := by
  induction turns generalizing course with
  | nil => cases staying.symm.trans left
  | cons turn rest ih =>
    cases now : (course.take context turn).ending with
    | none =>
      obtain ⟨before, after, rfl, leaves⟩ := ih (entered.take context turn) now left
      exact ⟨turn :: before, after, rfl, leaves⟩
    | some how =>
      obtain rfl : how = ending :=
        Option.some.inj
          (((entered.take context turn).takeAll_ending now context rest).symm.trans left)
      obtain ⟨rfl, leaves⟩ := entered.left_by_turn staying now
      exact ⟨[], rest, rfl, leaves⟩

/-! ## Reads that have not stopped -/

/-- What holds from the entry of a task on: the read has stopped, or else its engine was never
told of a stop. -/
structure Untold (engine : LogEngine ε ρ) (range : Range) (course : Course ε ρ κ) : Prop where
  entered : course.Entered range
  untold : Stopped range course.trace course.closedInTime ∨
    ∀ x, course.run = .executing x → x.ending = none →
      engine.Reached false x.progress course.shared.engine

theorem Untold.take (h : course.Untold context.engine range) (turn : Turn) :
    (course.take context turn).Untold context.engine range := by
  refine ⟨h.entered.take context turn, ?_⟩
  by_cases stopped : Stopped range course.trace course.closedInTime
  · exact .inl (stopped_take stopped context turn)
  · have reached := h.untold.resolve_left stopped
    cases hrun : course.run with
    | starting task => exact absurd hrun (h.entered.not_starting task)
    | settled task result =>
      exact .inr fun x run => absurd run ((later_of_settled hrun context turn).idle x)
    | exited task result =>
      exact .inr fun x run => absurd run ((later_of_exited hrun context turn).idle x)
    | executing x =>
      cases turn with
      | close =>
        refine .inl (.inr ?_)
        rw [closedInTime_close, hrun]
        exact Bool.or_true _
      | step =>
        cases left : x.ending with
        | some ending => exact .inr fun y run => absurd run ((later_of_leaving hrun left).idle y)
        | none =>
          have reflects := ((entered_iff_reflects hrun).mp h.entered).1
          have running : x.reading.run.stopReason = none :=
            Option.not_isSome_iff_eq_none.mp fun isSome => stopped (reflects.stopped_iff.mp isSome)
          refine .inr fun y run => ?_
          rw [take_step_working hrun left] at run ⊢
          obtain rfl := TaskRun.executing.inj run
          exact (x.step_spec context.engine context.outlet course.shared).untold running
            (reached x hrun left)

theorem untold_of_created {task : FetchTask} (created : task.state = .created)
    (context : TaskContext ε ρ κ) (shared : Shared ε κ) :
    ((start task shared).take context .step).Untold context.engine task.range := by
  have enters : task.entry = .enters := by rw [FetchTask.entry, created]; rfl
  refine ⟨entered_of_created created context shared, .inr fun x run _ => ?_⟩
  rw [take_step_entering rfl enters] at run ⊢
  obtain rfl := TaskRun.executing.inj run
  exact .start _ _

/-! ## What ends a read -/

/-- The next thing to happen is that the engine returns, and the read has not stopped. -/
def ReturnsUnstopped (context : TaskContext ε ρ κ) (course : Course ε ρ κ) : Prop :=
  course.run.deed context course.shared = .move (.leave .returned) ∧
    ∃ x, course.run = .executing x ∧ x.reading.run.isRunning = true

/-- An engine that returns only when it was told of a stop does not return before. -/
theorem Untold.not_returnsUnstopped (h : course.Untold context.engine range)
    (patient : context.engine.ReturnsOnceStopped) : ¬ course.ReturnsUnstopped context := by
  rintro ⟨returns, x, run, running⟩
  have reflects := ((entered_iff_reflects run).mp h.entered).1
  have unstopped : x.reading.run.stopReason = none := Option.isNone_iff_eq_none.mp running
  rw [run] at returns
  obtain ⟨working, leaves⟩ := Execution.deed_eq_move returns
  have never : ¬ Stopped range course.trace course.closedInTime := by
    rw [← reflects.stopped_iff, unstopped]
    exact Bool.false_ne_true
  have told := patient (h.untold.resolve_left never x run working) leaves
  rw [unstopped] at told
  cases told

/-- A task without an end that is completed has an engine that returned while the read
had not stopped. -/
theorem Entered.returned_of_completed (entered : course.Entered range)
    (unbounded : range.isBounded = false) (staying : course.ending = none) {turns : List Turn}
    {result : TaskResult} (exited : (course.takeAll context turns).run.result? = some result)
    (completed : (course.takeAll context turns).run.task.state = .completed) :
    result = .ok ∧ ∃ before after, turns = before ++ .step :: after ∧
      (course.takeAll context before).ReturnsUnstopped context := by
  have last : (course.takeAll context turns).Entered range :=
    takeAll_invariant (fun _ turn h => h.take context turn) entered turns
  obtain ⟨ending, left, -, state, rfl⟩ := last.left_of_result exited
  rw [completed, unbounded, Trace.verdict?_unbounded] at state
  -- The law leaves one case: the engine returned, and nothing has stopped the read.
  have never : ending = .returned ∧ ¬ Stopped range (course.takeAll context turns).trace
      (course.takeAll context turns).closedInTime := by
    rw [Stopped, unbounded, Trace.verdict?_unbounded]
    revert state
    cases ending <;> cases (course.takeAll context turns).trace.any Occurrence.fails <;>
      cases (course.takeAll context turns).closedInTime <;> simp [Ending.settles]
  obtain ⟨rfl, never⟩ := never
  obtain ⟨before, after, rfl, leaves⟩ := entered.left_at staying left
  refine ⟨rfl, before, after, rfl, leaves, ?_⟩
  have here : (course.takeAll context before).Entered range :=
    takeAll_invariant (fun _ turn h => h.take context turn) entered before
  obtain ⟨x, run⟩ := TaskRun.executing_of_deed leaves
  refine ⟨x, run, ?_⟩
  rw [RunContext.isRunning, Option.isNone_iff_eq_none, ← Option.not_isSome_iff_eq_none,
    ((entered_iff_reflects run).mp here).1.stopped_iff]
  intro stopped
  rw [takeAll_append] at never
  exact never (stopped_takeAll stopped context (.step :: after))

/-- With an engine that returns only when it was told of a stop, a task without an end is
never completed. -/
theorem Untold.closed_or_failed (h : course.Untold context.engine range)
    (unbounded : range.isBounded = false) (staying : course.ending = none)
    (patient : context.engine.ReturnsOnceStopped) {turns : List Turn} {result : TaskResult}
    (exited : (course.takeAll context turns).run.result? = some result) :
    (course.takeAll context turns).run.task.state = .closed ∨
      (course.takeAll context turns).run.task.state = .failed := by
  have later (turns : List Turn) : (course.takeAll context turns).Untold context.engine range :=
    takeAll_invariant (fun _ turn h => h.take turn) h turns
  have terminal := ((later turns).entered.left_of_result exited).terminal
  cases state : (course.takeAll context turns).run.task.state with
  | closed => exact .inl rfl
  | failed => exact .inr rfl
  | created | running | closing =>
    rw [state] at terminal
    cases terminal
  | completed =>
    obtain ⟨-, before, after, -, returns⟩ :=
      h.entered.returned_of_completed unbounded staying exited state
    exact absurd returns ((later before).not_returnsUnstopped patient)

/-- A task without an end is executed with any engine and any sink, and closed at any time. It hands
changes to the sink and never a watermark. Its context has stopped for a failure if a record was
refused or the engine has failed the read, for a close if the task was closed and there was no
failure, and otherwise it runs; it is never completed. If the task ends up completed, then its
engine returned while the context was running. With an engine that returns only when it was told of
a stop the task ends up closed or failed. -/
theorem unbounded_ended_from_outside (context : TaskContext ε ρ κ) (id : SplitId) (first : Position)
    (shared : Shared ε κ) (turns : List Turn) :
    let begin : Course ε ρ κ := start (.create (.unbounded id first)) shared
    let course := begin.takeAll context turns
    (∀ attempt ∈ course.trace.attempts, ∃ event, attempt.1 = .change id event) ∧
      (∀ x, course.run = .executing x →
        x.reading.run.stopReason =
          if course.trace.any Occurrence.fails then some .failed
          else if course.closedInTime then some .closed else none) ∧
      ∀ result, course.run.result? = some result →
        (course.run.task.state = .completed →
          result = .ok ∧ ∃ before after, turns = before ++ .step :: after ∧
            (begin.takeAll context before).ReturnsUnstopped context) ∧
        (context.engine.ReturnsOnceStopped →
          course.run.task.state = .closed ∨ course.run.task.state = .failed) := by
  intro begin course
  have proper : course.Proper (.unbounded id first) :=
    proper_takeAll context (.unbounded id first) shared turns
  refine ⟨fun attempt attempted => (proper.orderly.offers attempt attempted).change_of_unbounded,
    ?_, ?_⟩
  · intro x run
    exact (proper.reflects run).stopReason_of_unbounded rfl
  · intro result exited
    cases turns with
    | nil => cases exited
    | cons turn rest =>
      cases turn with
      | close =>
        have closed : course.ClosedBefore :=
          takeAll_invariant (fun _ turn h => h.take context turn)
            (closedBefore_of_created context rfl shared) rest
        refine ⟨fun completed => ?_, fun _ => .inl closed.state⟩
        cases closed.state.symm.trans completed
      | step =>
        have created : (FetchTask.create (.unbounded id first)).state = .created := rfl
        have untold := untold_of_created created context shared
        have staying : (begin.take context .step).ending = none := by
          rw [take_step_entering rfl rfl]
          rfl
        refine ⟨fun completed => ?_, fun patient =>
          untold.closed_or_failed rfl staying patient exited⟩
        obtain ⟨ok, before, after, rfl, returns⟩ :=
          untold.entered.returned_of_completed rfl staying exited completed
        exact ⟨ok, .step :: before, after, rfl, returns⟩

/-- A script that goes past the end which another range would have does not stop a read without an
end. A close does. -/
theorem closed_after_script :
    let context : TaskContext Script ScriptRun PlannedSink :=
      ⟨scriptedEngine, Sink.outlet PlannedSink.sink, .named "ORCLCDB", .ofMillis 1⟩
    let script := Script.ofSteps [.change (Sample.insert "ORDERS" 150), .advance (Sample.scn 250)]
    let course :=
      (start (.create (.unbounded ⟨"split-1"⟩ (Sample.scn 100))) ⟨script, ⟨[], [], .fresh⟩⟩).takeAll
        context
      (List.replicate 10 .step ++ .close :: List.replicate 4 .step)
    context.engine.ReturnsOnceStopped ∧ course.run.result? = some .ok ∧
      course.trace.attempts.length = 1 ∧
      course.run.task.state = .closed := by
  intro context script course
  have patient : context.engine.ReturnsOnceStopped :=
    scriptedEngine_keepsContract.returnsOnceStopped
  have exited : course.run.result? = some .ok := by decide
  have unfailed : course.run.task.state ≠ .failed := by decide
  obtain ⟨-, -, ends⟩ :=
    unbounded_ended_from_outside context ⟨"split-1"⟩ (Sample.scn 100) ⟨script, ⟨[], [], .fresh⟩⟩
      (List.replicate 10 .step ++ .close :: List.replicate 4 .step)
  exact ⟨patient, exited, by decide, ((ends .ok exited).2 patient).resolve_right unfailed⟩

/-- An engine may finish a read without an end as often as it likes; the task is completed
when it returns. -/
example :
    let engine := playedEngine
      [.move .finish, .move (.signal (.advance (Sample.scn 250))), .poll, .move .finish, .poll]
    let context : TaskContext Unit (List PlayedMove) PlannedSink :=
      ⟨engine, Sink.outlet PlannedSink.sink, .named "ORCLCDB", .ofMillis 1⟩
    let begin := start (.create (.unbounded ⟨"split-1"⟩ (Sample.scn 100))) ⟨(), ⟨[], [], .fresh⟩⟩
    let course := begin.takeAll context (List.replicate 9 .step)
    course.run.result? = some .ok ∧ course.trace.attempts = [] ∧
      course.run.task.state = .completed := by
  decide

end Course

end ChangeStream
