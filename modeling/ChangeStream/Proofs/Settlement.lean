import ChangeStream.Sample
import ChangeStream.Engine.Played
import ChangeStream.Sink.Recording
import ChangeStream.Proofs.Course
import ChangeStream.Proofs.FirstVerdict

/-!
# How a task is settled

The state in which an execution leaves its task is a function of what has happened: of how the
engine left, of the first verdict that the trace shows, and of whether the task was closed between
entry and settlement. It makes no difference whether the task is settled after its engine came back
or released after the engine broke off.
-/

namespace ChangeStream

variable {ε ρ κ : Type}

/-! ## The law -/

namespace Ending

/-- The state in which a task is left, given how the engine left, the first verdict and whether the
task was closed in time. -/
def settles : Ending → Option Verdict → Bool → TaskState
  | .failed _, _, _ => .failed
  | .panicked _, _, _ => .failed
  | .returned, some .failed, _ => .failed
  | .returned, some .completed, _ => .completed
  | .returned, none, true => .closed
  | .returned, none, false => .completed

/-- The result of the execution, given how the engine left. -/
def result : Ending → TaskResult
  | .returned => .ok
  | .failed error => .error (.engine error)
  | .panicked message => .panicked message

theorem settles_terminal (ending : Ending) (verdict : Option Verdict) (closed : Bool) :
    (ending.settles verdict closed).isTerminal = true := by
  cases ending <;> rcases verdict with _ | _ | _ <;> cases closed <;> rfl

end Ending

/-! ## Leaving -/

namespace Execution.Reflects

variable {x : Execution ρ} {range : Range} {trace : Trace} {closed : Bool}

/-- The settlement of a task whose engine returned. -/
theorem settledState_returned (h : x.Reflects range trace closed) :
    settledState .returned x.reading.run.stopReason x.reading.taskState =
      Ending.returned.settles (trace.verdict? range.isBounded) closed := by
  rw [← h.verdict]
  cases hverdict : x.reading.run.verdict with
  | some verdict =>
    rw [RunContext.stopReason_of_verdict _ hverdict]
    cases verdict <;> rfl
  | none =>
    -- Without a verdict the flag decides, and it is cleared exactly if the task was closed.
    simp only [RunContext.stopReason, hverdict, h.flag, Reading.taskState, h.state]
    cases closed <;> rfl

/-- The engine leaves: a task whose engine came back is settled, and one whose engine broke off is
released unsettled. The law is the same. -/
theorem leave (h : x.Reflects range trace closed) (ending : Ending) :
    ∃ task : FetchTask, task.running = false ∧
      task.state = ending.settles (trace.verdict? range.isBounded) closed ∧
      ((TaskRun.leave (ρ := ρ) x.reading ending).1 = .settled task ending.result ∨
        (TaskRun.leave (ρ := ρ) x.reading ending).1 = .exited task ending.result) := by
  cases ending with
  | panicked message =>
    -- Nobody has settled the task, so that the release finds it running or closing.
    have unsettled : x.reading.asTask.state = if closed then .closing else .running := by
      simp only [Reading.asTask, Reading.taskState, h.state, Option.getD_some]
    have hrelease : x.reading.asTask.release.1.running = false ∧
        x.reading.asTask.release.1.state = .failed := by
      unfold FetchTask.release
      cases closed <;> simp [unsettled]
    exact ⟨_, hrelease.1, hrelease.2, .inr rfl⟩
  | failed error => exact ⟨_, rfl, rfl, .inl rfl⟩
  | returned => exact ⟨_, rfl, h.settledState_returned, .inl rfl⟩

end Execution.Reflects

namespace Course

/-- The engine has left, and the task is as the law says. -/
def Left (range : Range) (course : Course ε ρ κ) (task : FetchTask) (result : TaskResult) : Prop :=
  ∃ ending, course.ending = some ending ∧ task.running = false ∧
    task.state = ending.settles (course.trace.verdict? range.isBounded) course.closedInTime ∧
    result = ending.result

/-- What holds of a course from the entry of its task on. -/
def Entered (range : Range) (course : Course ε ρ κ) : Prop :=
  match course.run with
  | .starting _ => False
  | .executing x => x.Reflects range course.trace course.closedInTime ∧ course.ending = x.ending
  | .settled task result | .exited task result => course.Left range task result

variable {range : Range} {course : Course ε ρ κ} {task : FetchTask} {result : TaskResult}

theorem Left.terminal (h : course.Left range task result) : task.state.isTerminal = true := by
  obtain ⟨ending, -, -, hstate, -⟩ := h
  rw [hstate]
  exact ending.settles_terminal _ _

/-- What happens after the engine has left changes nothing of it any more. -/
theorem Left.of_later (h : course.Left range task result) {other : Course ε ρ κ}
    (later : course.Later other) {task' : FetchTask} (running : task'.running = false)
    (state : task'.state = task.state) :
    other.Left range task' result := by
  obtain ⟨how, hending, -, hstate, hresult⟩ := h
  obtain ⟨events, hlogs⟩ := later.logs
  refine ⟨how, later.ending.trans hending, running, ?_, hresult⟩
  rw [state, hstate, hlogs, Trace.verdict?_append, Trace.verdict?_ofLogs,
    Option.or_none, later.closes]

theorem entered_iff_reflects {x : Execution ρ} (run : course.run = .executing x) :
    course.Entered range ↔
      x.Reflects range course.trace course.closedInTime ∧ course.ending = x.ending := by
  rw [Entered, run]

theorem entered_iff_left
    (run : course.run = .settled task result ∨ course.run = .exited task result) :
    course.Entered range ↔ course.Left range task result := by
  rcases run with run | run <;> rw [Entered, run]

theorem Entered.not_starting (h : course.Entered range) (task : FetchTask) :
    course.run ≠ .starting task := by
  intro run
  rw [Entered, run] at h
  exact h

theorem Entered.leave {x : Execution ρ} {ending : Ending} (run : course.run = .executing x)
    (h : course.Entered range) (left : x.ending = some ending) (context : TaskContext ε ρ κ) :
    (course.take context .step).Entered range := by
  obtain ⟨hreflects, hending⟩ := (entered_iff_reflects run).mp h
  obtain ⟨task, running, state, hrun⟩ := hreflects.leave ending
  obtain ⟨events, hlogs⟩ := TaskRun.leave_logs (ρ := ρ) x.reading ending
  rw [take_step_leaving run left]
  refine (entered_iff_left hrun).mpr ⟨ending, hending.trans left, running, ?_, rfl⟩
  rw [hlogs, Trace.verdict?_append, Trace.verdict?_ofLogs, Option.or_none]
  exact state

theorem Entered.work {x : Execution ρ} (run : course.run = .executing x) (h : course.Entered range)
    (working : x.ending = none) (context : TaskContext ε ρ κ) :
    (course.take context .step).Entered range := by
  obtain ⟨hreflects, hending⟩ := (entered_iff_reflects run).mp h
  have hstep := hreflects.step (x.step_spec context.engine context.outlet course.shared)
  have hclosed := course.closedInTime_step context
  simp only [run, TaskRun.deed] at hclosed
  rw [← hclosed] at hstep
  have htake : course.take context .step = _ := take_step_working run working
  refine (entered_iff_reflects (congrArg Course.run htake)).mpr ⟨?_, ?_⟩
  · rw [congrArg Course.trace htake]
    exact hstep
  · rw [congrArg Course.ending htake, hending.trans working]
    exact Option.or_none

theorem Entered.close {x : Execution ρ} (run : course.run = .executing x) (h : course.Entered range)
    (context : TaskContext ε ρ κ) : (course.take context .close).Entered range := by
  obtain ⟨hreflects, hending⟩ := (entered_iff_reflects run).mp h
  have hclosed := course.closedInTime_close context
  simp only [run, TaskRun.phase, decide_true, Bool.or_true] at hclosed
  refine (entered_iff_reflects (x := { x with reading := x.reading.close }) ?_).mpr ⟨?_, hending⟩
  · rw [take, run, TaskRun.close]
  · rw [hclosed]
    exact hreflects.close

theorem Entered.take (h : course.Entered range) (context : TaskContext ε ρ κ) (turn : Turn) :
    (course.take context turn).Entered range := by
  cases hrun : course.run with
  | starting task => exact absurd hrun (h.not_starting task)
  | executing x =>
    cases turn with
    | close => exact h.close hrun context
    | step =>
      cases hleft : x.ending with
      | some ending => exact h.leave hrun hleft context
      | none => exact h.work hrun hleft context
  | settled task result =>
    have left := (entered_iff_left (.inl hrun)).mp h
    have later := later_of_settled hrun context turn
    cases turn with
    | close =>
      refine (entered_iff_left (.inl ?_)).mpr
        (left.of_later later rfl (FetchTask.close_state_of_isTerminal left.terminal))
      rw [Course.take, hrun, TaskRun.close]
    | step =>
      refine (entered_iff_left (.inr ?_)).mpr
        (left.of_later later task.release_running
          (FetchTask.release_state_of_isTerminal left.terminal))
      rw [take_step_settled hrun]
  | exited task result =>
    have left := (entered_iff_left (.inr hrun)).mp h
    have later := later_of_exited hrun context turn
    cases turn with
    | close =>
      refine (entered_iff_left (.inr ?_)).mpr
        (left.of_later later rfl (FetchTask.close_state_of_isTerminal left.terminal))
      rw [Course.take, hrun, TaskRun.close]
    | step => rwa [take_step_exited hrun]

theorem entered_of_created {task : FetchTask} (created : task.state = .created)
    (context : TaskContext ε ρ κ) (shared : Shared ε κ) :
    ((start task shared).take context .step).Entered task.range := by
  have enters : task.entry = .enters := by rw [FetchTask.entry, created]; rfl
  rw [take_step_entering rfl enters]
  obtain ⟨hreflects, hending⟩ :=
    Execution.Reflects.start context.engine context.source context.pollInterval task shared
  exact (entered_iff_reflects rfl).mpr ⟨hreflects, by rw [hending]; rfl⟩

/-! ## The end of the execution -/

/-- The engine has left, and the execution is over after at most so many further steps. -/
def ExitsWithin (steps : Nat) (course : Course ε ρ κ) : Prop :=
  match course.run with
  | .starting _ => False
  | .executing x => x.ending.isSome = true ∧ 2 ≤ steps
  | .settled .. => 1 ≤ steps
  | .exited .. => True

theorem ExitsWithin.step {steps : Nat} (h : course.ExitsWithin (steps + 1))
    (context : TaskContext ε ρ κ) :
    (course.take context .step).ExitsWithin steps := by
  cases hrun : course.run with
  | starting task =>
    rw [ExitsWithin, hrun] at h
    exact h.elim
  | executing x =>
    rw [ExitsWithin, hrun] at h
    obtain ⟨hleft, hsteps⟩ := h
    obtain ⟨ending, left⟩ := Option.isSome_iff_exists.mp hleft
    rw [take_step_leaving hrun left]
    cases ending with
    | panicked message => exact trivial
    | returned => exact Nat.le_of_succ_le_succ hsteps
    | failed error => exact Nat.le_of_succ_le_succ hsteps
  | settled task result =>
    rw [take_step_settled hrun]
    exact trivial
  | exited task result =>
    rw [take_step_exited hrun, ExitsWithin, hrun]
    exact trivial

theorem ExitsWithin.close {steps : Nat} (h : course.ExitsWithin steps)
    (context : TaskContext ε ρ κ) :
    (course.take context .close).ExitsWithin steps := by
  rw [ExitsWithin] at h ⊢
  rw [take]
  cases hrun : course.run with
  | starting task => simp only [hrun] at h
  | executing x => simpa only [hrun, TaskRun.close] using h
  | settled task result => simpa only [hrun, TaskRun.close] using h
  | exited task result => trivial

theorem ExitsWithin.takeAll {turns : List Turn} (h : course.ExitsWithin (turns.count .step))
    (context : TaskContext ε ρ κ) : (course.takeAll context turns).ExitsWithin 0 := by
  induction turns generalizing course with
  | nil => exact h
  | cons turn rest ih =>
    cases turn with
    | step =>
      rw [List.count_cons_self] at h
      exact ih (h.step context)
    | close =>
      rw [List.count_cons_of_ne (by decide)] at h
      exact ih (h.close context)

theorem ExitsWithin.has_result (h : course.ExitsWithin 0) :
    ∃ result, course.run.result? = some result := by
  unfold ExitsWithin at h
  cases hrun : course.run with
  | exited task result => exact ⟨result, rfl⟩
  | starting task => rw [hrun] at h; exact h.elim
  | executing x => rw [hrun] at h; cases h.2
  | settled task result => rw [hrun] at h; cases h

theorem Entered.exitsWithin (h : course.Entered range) {ending : Ending}
    (left : course.ending = some ending) {steps : Nat} (enough : 2 ≤ steps) :
    course.ExitsWithin steps := by
  unfold ExitsWithin
  cases hrun : course.run with
  | starting task => rw [Entered, hrun] at h; exact h
  | executing x =>
    have hending := ((entered_iff_reflects hrun).mp h).2
    rw [left] at hending
    exact ⟨by rw [← hending]; rfl, enough⟩
  | settled task result => exact Nat.le_of_succ_le enough
  | exited task result => exact trivial

theorem Entered.left_of_result (h : course.Entered range) {result : TaskResult}
    (exited : course.run.result? = some result) : course.Left range course.run.task result := by
  cases hrun : course.run with
  | exited task outcome =>
    rw [hrun] at exited
    obtain rfl := Option.some.inj exited
    exact (entered_iff_left (.inr hrun)).mp h
  | starting task => rw [hrun] at exited; cases exited
  | executing x => rw [hrun] at exited; cases exited
  | settled task outcome => rw [hrun] at exited; cases exited

/-- A created task is executed with any engine and any sink, and closed at any time. Once the engine
has left, the execution is over after two more steps. Its result tells how the engine left. The flag
is cleared then, and the state is failed if the engine failed or broke off or the first verdict was
a failure; or else completed if the first verdict was that; or else closed if the task was closed
after its entry and before its settlement; or else completed. -/
theorem settlement_law (context : TaskContext ε ρ κ) {task : FetchTask}
    (created : task.state = .created) (shared : Shared ε κ) (turns : List Turn) :
    let course := (start task shared).takeAll context (.step :: turns)
    (∀ ending more, course.ending = some ending → 2 ≤ more.count .step →
      ∃ result, (course.takeAll context more).run.result? = some result) ∧
    ∀ result, course.run.result? = some result →
      ∃ ending, course.ending = some ending ∧ result = ending.result ∧
        course.run.task.running = false ∧
        course.run.task.state =
          ending.settles (course.trace.verdict? task.range.isBounded) course.closedInTime := by
  intro course
  have entered : course.Entered task.range :=
    takeAll_invariant (fun _ turn h => h.take context turn)
      (entered_of_created created context shared) turns
  constructor
  · intro ending more left enough
    exact ((entered.exitsWithin left enough).takeAll context).has_result
  · intro result exited
    obtain ⟨ending, hending, hrunning, hstate, hresult⟩ := entered.left_of_result exited
    exact ⟨ending, hending, hresult, hrunning, hstate⟩

/-- A task that is closed while the sink takes the END watermark, and whose engine then fails the
read and returns, is completed. -/
theorem settlement_of_close_in_dispatch :
    let engine := playedEngine
      [.move (.signal (.change (Sample.insert "ORDERS" 150))),
        .move (.signal (.advance (Sample.scn 250))),
        .move .fail]
    let context : TaskContext Unit (List PlayedMove) PlannedSink :=
      ⟨engine, Sink.outlet PlannedSink.sink, .named "ORCLCDB", .ofMillis 1⟩
    let course := (start (.create Sample.split) ⟨(), ⟨[], [.closeAndPass], .fresh⟩⟩).takeAll context
      (.step :: [.step, .step, .step, .step, .step, .step, .step, .close, .step])
    (FetchTask.create Sample.split).state = .created ∧ course.run.result? = some .ok ∧
      course.closedInTime = true ∧ course.run.task.running = false ∧
        course.run.task.state = .completed := by
  intro engine context course
  have created : (FetchTask.create Sample.split).state = .created := rfl
  have exited : course.run.result? = some .ok := by decide
  obtain ⟨ending, hending, -, hrunning, hstate⟩ :=
    (settlement_law context created ⟨(), ⟨[], [.closeAndPass], .fresh⟩⟩
      [.step, .step, .step, .step, .step, .step, .step, .close, .step]).2 .ok exited
  have returned : course.ending = some .returned := by decide
  have verdict : course.trace.verdict? Sample.split.isBounded = some .completed := by decide
  have closed : course.closedInTime = true := by decide
  obtain rfl := Option.some.inj (hending.symm.trans returned)
  refine ⟨created, exited, closed, hrunning, hstate.trans ?_⟩
  exact congrArg (fun verdict => Ending.returned.settles verdict course.closedInTime) verdict

end Course

end ChangeStream
