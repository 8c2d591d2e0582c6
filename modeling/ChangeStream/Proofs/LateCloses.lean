import Mathlib.Data.List.Forall2
import ChangeStream.Sample
import ChangeStream.Engine.Played
import ChangeStream.Sink.Recording
import ChangeStream.Proofs.Agreement
import ChangeStream.Proofs.LastAttempt

/-!
# Late closes

Once a read has stopped it makes no difference to its task how often it is closed. A further close
clears the flag and notes that a close was asked for, but the reason for having stopped is not asked
of the flag any more, and the task is settled for that reason. Only somebody who looks at the task
before it is settled can see the close: the task is closing instead of running.
-/

namespace ChangeStream

variable {ε ρ κ : Type}

/-! ## What a late close may change -/

/-- How a read looks when a close has come late: a running task may be closing instead. -/
inductive ReadStatus.Late : ReadStatus → ReadStatus → Prop
  | same (status : ReadStatus) : Late status status
  | closing (reason : Option StopReason) :
      Late ⟨reason, some ⟨.running, true⟩⟩ ⟨reason, some ⟨.closing, false⟩⟩

/-- Occurrences that differ only where the engine has looked around after a late close. -/
inductive Occurrence.Late : Occurrence → Occurrence → Prop
  | same (occurrence : Occurrence) : Late occurrence occurrence
  | observed {status other : ReadStatus} (late : status.Late other) :
      Late (.observed status) (.observed other)
  | roundTaken (round : Nat) {status other : ReadStatus} (late : status.Late other) :
      Late (.roundTaken round status) (.roundTaken round other)

/-- Traces that differ only where the engine has looked around after a late close. -/
def Trace.Late (trace other : Trace) : Prop := List.Forall₂ Occurrence.Late trace other

namespace Trace

theorem late_refl (trace : Trace) : trace.Late trace :=
  List.forall₂_same.mpr fun occurrence _ => .same occurrence

theorem Late.append {trace other more further : Trace} (h : trace.Late other)
    (rest : more.Late further) :
    (trace ++ more).Late (other ++ further) :=
  List.rel_append h rest

/-- A view of traces that leaves out where the engine looks around does not see late closes. -/
theorem Late.filterMap {β : Type} {view : Occurrence → Option β}
    (blind : ∀ occurrence other, occurrence.Late other → view other = view occurrence)
    {trace other : Trace} (h : trace.Late other) : other.filterMap view = trace.filterMap view := by
  induction h with
  | nil => rfl
  | cons late _ ih => rw [List.filterMap_cons, List.filterMap_cons, blind _ _ late, ih]

theorem Late.attempts {trace other : Trace} (h : trace.Late other) :
    other.attempts = trace.attempts :=
  h.filterMap fun _ _ late => by cases late <;> rfl

theorem Late.reports {trace other : Trace} (h : trace.Late other) : other.reports = trace.reports :=
  h.filterMap fun _ _ late => by cases late <;> rfl

end Trace

/-! ## Reads that have stopped -/

namespace Reading

variable {reading : Reading}

theorem close_close (reading : Reading) : reading.close.close = reading.close := by
  simp only [close, RunContext.withFlag, Option.map_map]
  congr 2
  funext state
  exact state.afterClose_afterClose

/-- The reason for having stopped does not change with the flag. -/
theorem stopReason_close (stopped : reading.run.isRunning = false) :
    reading.close.run.stopReason = reading.run.stopReason := by
  obtain ⟨range, ⟨kind, running, verdict, interval⟩, task⟩ := reading
  cases verdict with
  | some verdict => rfl
  | none =>
    cases running with
    | false => rfl
    | true => cases stopped

theorem isRunning_close (reading : Reading) : reading.close.run.isRunning = false := by
  obtain ⟨range, ⟨kind, running, verdict, interval⟩, task⟩ := reading
  cases verdict <;> rfl

theorem offer?_close (stopped : reading.run.isRunning = false) (signal : Signal) :
    reading.close.offer? signal = reading.offer? signal := by
  have closed := reading.isRunning_close
  cases signal <;> simp only [offer?, closed, stopped] <;> rfl

theorem finish_close (reading : Reading) :
    reading.close.finish = (reading.finish.1, reading.finish.2.1.close, reading.finish.2.2) := by
  obtain ⟨range, ⟨kind, running, verdict, interval⟩, task⟩ := reading
  cases kind <;> cases verdict <;> rfl

theorem fail_close (reading : Reading) :
    reading.close.fail = (reading.fail.1, reading.fail.2.close) := by
  obtain ⟨range, ⟨kind, running, verdict, interval⟩, task⟩ := reading
  cases verdict <;> rfl

/-- The sink may close the read as well; what it answers counts the same. -/
theorem conclude_close (reading : Reading) (record : Record) (reply : Reply) :
    reading.close.conclude record reply =
      ((reading.conclude record reply).1.close, (reading.conclude record reply).2) := by
  obtain ⟨closes, refusal⟩ := reply
  simp only [conclude, ← apply_ite Reading.close]
  cases refusal with
  | some error => simp only [fail_close]; rfl
  | none =>
    cases record with
    | change split event => rfl
    | watermark event => simp only [finish_close]

/-- The task of a read that an engine is at work on is running, or closing if the
flag is cleared. -/
def IsAtWork (reading : Reading) : Prop :=
  reading.task = some (if reading.run.running then .running else .closing)

theorem status_close (stopped : reading.run.isRunning = false) (atWork : reading.IsAtWork) :
    reading.status.Late reading.close.status := by
  rw [IsAtWork] at atWork
  have closed : reading.close.status = ⟨reading.run.stopReason, some ⟨.closing, false⟩⟩ := by
    rw [status, stopReason_close stopped, close, atWork]
    cases reading.run.running <;> rfl
  rw [closed, status, atWork]
  cases reading.run.running with
  | true => exact .closing _
  | false => exact .same _

/-- A task that was entered cannot be entered again, closing or not. -/
theorem entry_close (atWork : reading.IsAtWork) :
    reading.close.task.map (TaskState.entry reading.range.id) =
      reading.task.map (TaskState.entry reading.range.id) := by
  rw [IsAtWork] at atWork
  rw [close, atWork]
  cases reading.run.running <;> rfl

/-- The settlement goes by the reason for having stopped and does not ask whether the
task is closing. -/
theorem settle_close (stopped : reading.run.isRunning = false) (ending : Ending) :
    reading.close.settle ending = reading.settle ending := by
  have reason := stopReason_close stopped
  obtain ⟨why, hwhy⟩ : ∃ why, reading.run.stopReason = some why := by
    rw [RunContext.isRunning, Option.isNone_eq_false_iff, Option.isSome_iff_exists] at stopped
    exact stopped
  have state : settledState ending (some why) reading.close.taskState =
      settledState ending (some why) reading.taskState := by
    cases ending <;> cases why <;> rfl
  simp only [settle, reason, hwhy, state]
  rfl

/-- A task whose engine broke off has failed, closing or not. -/
theorem release_close (atWork : reading.IsAtWork) :
    reading.close.asTask.release = reading.asTask.release := by
  rw [IsAtWork] at atWork
  simp only [asTask, taskState, close, atWork, FetchTask.release]
  cases reading.run.running <;> rfl

end Reading

/-! ## Executions that have stopped -/

namespace Execution

/-- The execution after a close by another party. -/
def close (x : Execution ρ) : Execution ρ := { x with reading := x.reading.close }

variable {x : Execution ρ}

theorem answer_close (x : Execution ρ) (record : Record) (reply : Reply) :
    x.close.answer record reply = ((x.answer record reply).1.close, (x.answer record reply).2) := by
  rw [answer, close, Reading.conclude_close]
  rfl

theorem endingLog_close {reading : Reading} (stopped : reading.run.isRunning = false)
    (ending : Ending) :
    endingLog reading.close ending = endingLog reading ending := by
  cases ending with
  | returned =>
    rw [endingLog, endingLog, Reading.stopReason_close stopped]
    rfl
  | failed | panicked => rfl

/-- The move of an engine that has been told of the same stop. -/
theorem perform_close (stopped : x.reading.run.isRunning = false) (atWork : x.reading.IsAtWork)
    (move : Move) :
    (x.close.perform move).1 = (x.perform move).1.close ∧
    (x.perform move).2.Late (x.close.perform move).2 := by
  cases move with
  | signal signal =>
    rw [perform, perform, close, Reading.offer?_close stopped]
    exact ⟨rfl, Trace.late_refl _⟩
  | finish =>
    rw [perform, perform, close, Reading.finish_close]
    exact ⟨rfl, Trace.late_refl _⟩
  | fail =>
    rw [perform, perform, close, Reading.fail_close]
    exact ⟨rfl, Trace.late_refl _⟩
  | observe => exact ⟨rfl, .cons (.observed (Reading.status_close stopped atWork)) .nil⟩
  | takeRound round =>
    exact ⟨rfl, .cons (.roundTaken round (Reading.status_close stopped atWork)) .nil⟩
  | executeAgain =>
    refine ⟨rfl, ?_⟩
    change Trace.Late _
      [.executedAgain (x.reading.close.task.map (TaskState.entry x.reading.range.id))]
    rw [Reading.entry_close atWork]
    exact Trace.late_refl _
  | leave ending =>
    refine ⟨rfl, ?_⟩
    change (endingLog x.reading ending).Late (endingLog x.reading.close ending)
    rw [endingLog_close stopped]
    exact Trace.late_refl _
  | idle | wait | close | log => exact ⟨rfl, Trace.late_refl _⟩

/-- One step of an execution that has stopped, closed once more or not. -/
theorem step_close (stopped : x.reading.run.isRunning = false) (atWork : x.reading.IsAtWork)
    (engine : LogEngine ε ρ) (outlet : Outlet κ) (shared : Shared ε κ) :
    let result := x.step engine outlet shared
    let late := x.close.step engine outlet shared
    late.1 = result.1.close ∧ late.2.1 = result.2.1 ∧ result.2.2.Late late.2.2 := by
  intro result late
  cases left : x.ending with
  | some ending =>
    have nothing : result = (x, shared, []) := by simp only [result, step, left]
    have also : late = (x.close, shared, []) := by simp only [late, step, close, left]
    rw [nothing, also]
    exact ⟨rfl, rfl, .nil⟩
  | none =>
    cases offered : x.offered with
    | some record =>
      cases answer : outlet shared.sink record with
      | none =>
        have nothing : result = (x, shared, []) := step_of_full left offered answer
        have also : late = (x.close, shared, []) := step_of_full left offered answer
        rw [nothing, also]
        exact ⟨rfl, rfl, .nil⟩
      | some answered =>
        obtain ⟨reply, state⟩ := answered
        have answers : result = _ := step_of_answer left offered answer
        have also : late = _ := step_of_answer (x := x.close) left offered answer
        rw [answers, also, answer_close]
        exact ⟨rfl, rfl, Trace.late_refl _⟩
    | none =>
      obtain ⟨⟨move, progress, state⟩, next⟩ :
          ∃ next, engine.next x.reading.run.stopReason x.progress shared.engine = next := ⟨_, rfl⟩
      -- The engine is told the same.
      have told : engine.next x.close.reading.run.stopReason x.close.progress shared.engine =
          (move, progress, state) := by
        rw [← next, close, Reading.stopReason_close stopped]
      have moves : result = _ := step_of_move left offered next
      have also : late = _ := step_of_move (x := x.close) left offered told
      obtain ⟨run, trace⟩ := perform_close (x := { x with progress }) stopped atWork move
      rw [moves, also]
      exact ⟨run, rfl, trace⟩

end Execution

theorem Execution.Reflects.atWork {x : Execution ρ} {range : Range} {trace : Trace} {closed : Bool}
    (h : x.Reflects range trace closed) : x.reading.IsAtWork := by
  rw [Reading.IsAtWork, h.state, h.flag]
  cases closed <;> rfl

/-! ## Tasks that have stopped -/

namespace TaskRun

/-- The read has stopped, or there is none any more: the task was closed before it was entered, or
its execution is over. -/
def HasStopped : TaskRun ρ → Prop
  | .starting task => task.state = .closed
  | .executing x => x.reading.run.isRunning = false
  | .settled .. | .exited .. => True

/-- The flag is cleared as long as no engine is at work, and afterwards the state is
terminal as well. -/
def Cleared : TaskRun ρ → Prop
  | .starting task => task.running = false
  | .executing _ => True
  | .settled task _ | .exited task _ => task.state.isTerminal = true ∧ task.running = false

/-- What the engine is told at the next step, if it is asked for a move: whether the read has
stopped, and why. -/
def told? : TaskRun ρ → Option (Option StopReason)
  | .executing x =>
    if x.ending.isNone && x.offered.isNone then some x.reading.run.stopReason else none
  | .starting _ | .settled .. | .exited .. => none

variable {run : TaskRun ρ}

theorem executing_or_idle (run : TaskRun ρ) :
    (∃ x, run = .executing x) ∨ ∀ x, run ≠ .executing x := by
  cases run with
  | executing x => exact .inl ⟨x, rfl⟩
  | starting | settled | exited => exact .inr fun _ => nofun

theorem close_executing (x : Execution ρ) : (executing x).close = .executing x.close := rfl

theorem HasStopped.close (stopped : run.HasStopped) : run.close.HasStopped := by
  cases run with
  | starting task =>
    change task.state.afterClose = .closed
    rw [show task.state = .closed from stopped]
    rfl
  | executing x => exact x.reading.isRunning_close
  | settled | exited => trivial

theorem Cleared.close (cleared : run.Cleared) : run.close.Cleared := by
  cases run with
  | starting task => exact rfl
  | executing x => exact trivial
  | settled task result | exited task result =>
    rw [TaskRun.close, FetchTask.close_of_isTerminal cleared.1 cleared.2]
    exact cleared

theorem close_close (run : TaskRun ρ) : run.close.close = run.close := by
  cases run with
  | executing x => rw [TaskRun.close, TaskRun.close, Reading.close_close]
  | starting task | settled task result | exited task result =>
    simp only [TaskRun.close, FetchTask.close, TaskState.afterClose_afterClose]

/-- Where no engine is at work a late close changes nothing at all. -/
theorem close_of_cleared (stopped : run.HasStopped) (cleared : run.Cleared)
    (idle : ∀ x, run ≠ .executing x) :
    run.close = run := by
  cases run with
  | executing x => exact absurd rfl (idle x)
  | starting task =>
    have closed : task.state = .closed := stopped
    rw [TaskRun.close, FetchTask.close_of_isTerminal (by rw [closed]; rfl) cleared]
  | settled task result | exited task result =>
    rw [TaskRun.close, FetchTask.close_of_isTerminal cleared.1 cleared.2]

theorem leave_close {reading : Reading} (stopped : reading.run.isRunning = false)
    (atWork : reading.IsAtWork) (ending : Ending) :
    leave (ρ := ρ) reading.close ending = leave reading ending := by
  cases ending with
  | panicked message => simp only [leave, Reading.release_close atWork]
  | failed error => simp only [leave, Reading.settle_close stopped]
  | returned => simp only [leave, Reading.settle_close stopped]

theorem step_of_working (context : TaskContext ε ρ κ) (shared : Shared ε κ) {x : Execution ρ}
    (working : x.ending = none) :
    (executing x).step context.engine context.outlet context.source context.pollInterval shared =
      (.executing (x.step context.engine context.outlet shared).1,
        (x.step context.engine context.outlet shared).2) := by
  simp only [step, working]

theorem step_of_left (context : TaskContext ε ρ κ) (shared : Shared ε κ) {x : Execution ρ}
    {ending : Ending} (left : x.ending = some ending) :
    (executing x).step context.engine context.outlet context.source context.pollInterval shared =
      ((leave x.reading ending).1, shared, (leave (ρ := ρ) x.reading ending).2) := by
  simp only [step, left]

/-- One step of a run that has stopped, closed once more or not. -/
theorem step_close (stopped : run.HasStopped) (cleared : run.Cleared)
    (atWork : ∀ x, run = .executing x → x.reading.IsAtWork) (context : TaskContext ε ρ κ)
    (shared : Shared ε κ) :
    let result := run.step context.engine context.outlet context.source context.pollInterval shared
    let late :=
      run.close.step context.engine context.outlet context.source context.pollInterval shared
    (late.1 = result.1 ∨ late.1 = result.1.close) ∧ late.2.1 = result.2.1 ∧
      result.2.2.Late late.2.2 := by
  rcases run.executing_or_idle with ⟨x, rfl⟩ | idle
  · cases left : x.ending with
    | none =>
      obtain ⟨after, same, late⟩ :=
        x.step_close stopped (atWork x rfl) context.engine context.outlet shared
      rw [close_executing, step_of_working context shared left,
        step_of_working (x := x.close) context shared left]
      exact ⟨.inr (congrArg executing after), same, late⟩
    | some ending =>
      rw [close_executing, step_of_left context shared left,
        step_of_left (x := x.close) context shared left, Execution.close,
        leave_close stopped (atWork x rfl)]
      exact ⟨.inl rfl, rfl, Trace.late_refl _⟩
  · rw [close_of_cleared stopped cleared idle]
    exact ⟨.inl rfl, rfl, Trace.late_refl _⟩

theorem told?_close (stopped : run.HasStopped) : run.close.told? = run.told? := by
  cases run with
  | executing x => simp only [TaskRun.close, told?, Reading.stopReason_close stopped]
  | starting | settled | exited => rfl

end TaskRun

/-! ## Courses that have stopped -/

namespace Course

variable {context : TaskContext ε ρ κ} {course other : Course ε ρ κ} {range : Range}

theorem Proper.hasStopped_iff (proper : course.Proper range) {x : Execution ρ}
    (run : course.run = .executing x) :
    course.run.HasStopped ↔ Stopped range course.trace course.closedInTime := by
  rw [← (proper.reflects run).stopped_iff, run, TaskRun.HasStopped, RunContext.isRunning,
    Option.isNone_eq_false_iff]

/-- What holds of a course from the moment on at which the read has stopped. -/
structure Past (range : Range) (course : Course ε ρ κ) : Prop where
  proper : course.Proper range
  cleared : course.run.Cleared
  stopped : course.run.HasStopped

theorem cleared_step (proper : course.Proper range) (cleared : course.run.Cleared)
    (context : TaskContext ε ρ κ) :
    (course.take context .step).run.Cleared := by
  cases hrun : course.run with
  | starting task =>
    rw [hrun] at cleared
    rcases proper.state_of_starting hrun with created | closed
    · rw [take_step_entering hrun (congrArg (TaskState.entry task.range.id) created)]
      exact trivial
    · rw [take_step_closedBefore hrun (congrArg (TaskState.entry task.range.id) closed)]
      exact ⟨congrArg TaskState.isTerminal closed, cleared⟩
  | executing x =>
    cases left : x.ending with
    | none =>
      rw [take_step_working hrun left]
      exact trivial
    | some ending =>
      obtain ⟨task, running, state, after⟩ := (proper.reflects hrun).leave ending
      have terminal : task.state.isTerminal = true := by
        rw [state]
        exact ending.settles_terminal _ _
      rw [take_step_leaving hrun left]
      rcases after with settled | exited
      · rw [settled]
        exact ⟨terminal, running⟩
      · rw [exited]
        exact ⟨terminal, running⟩
  | settled task result =>
    rw [hrun] at cleared
    rw [take_step_settled hrun]
    refine ⟨?_, task.release_running⟩
    rw [FetchTask.release_state_of_isTerminal cleared.1]
    exact cleared.1
  | exited task result =>
    rw [take_step_exited hrun]
    exact cleared

theorem cleared_take (proper : course.Proper range) (cleared : course.run.Cleared)
    (context : TaskContext ε ρ κ) (turn : Turn) : (course.take context turn).run.Cleared := by
  cases turn with
  | step => exact cleared_step proper cleared context
  | close => exact cleared.close

theorem cleared_takeAll (proper : course.Proper range) (cleared : course.run.Cleared)
    (context : TaskContext ε ρ κ) (turns : List Turn) :
    (course.takeAll context turns).run.Cleared := by
  induction turns generalizing course with
  | nil => exact cleared
  | cons turn rest ih =>
    exact ih (proper.take context turn) (cleared_take proper cleared context turn)

theorem hasStopped_of_over (ended : course.run.IsOver) : course.run.HasStopped := by
  cases hrun : course.run with
  | settled | exited => exact trivial
  | starting | executing =>
    rw [hrun] at ended
    exact ended.elim

theorem Past.take (past : course.Past range) (context : TaskContext ε ρ κ) (turn : Turn) :
    (course.take context turn).Past range := by
  have proper := past.proper.take context turn
  refine ⟨proper, cleared_take past.proper past.cleared context turn, ?_⟩
  cases turn with
  | close => exact past.stopped.close
  | step =>
    have stopped := past.stopped
    cases hrun : course.run with
    | starting task =>
      rw [hrun] at stopped
      rw [take_step_closedBefore hrun (congrArg (TaskState.entry task.range.id) stopped)]
      exact trivial
    | executing x =>
      cases left : x.ending with
      | none =>
        have taken : course.take context .step = _ := take_step_working hrun left
        have run := congrArg Course.run taken
        rw [proper.hasStopped_iff run]
        exact stopped_take ((past.proper.hasStopped_iff hrun).mp stopped) context .step
      | some ending => exact hasStopped_of_over (over_of_leaving hrun left)
    | settled task result =>
      rw [take_step_settled hrun]
      exact trivial
    | exited task result =>
      rw [take_step_exited hrun]
      exact stopped

/-- The second course is the first, the task having been closed further times after the
read had stopped. -/
structure Shadows (other course : Course ε ρ κ) : Prop where
  run : other.run = course.run ∨ other.run = course.run.close
  shared : other.shared = course.shared
  trace : course.trace.Late other.trace

theorem shadows_refl (course : Course ε ρ κ) : course.Shadows course :=
  ⟨.inl rfl, rfl, Trace.late_refl _⟩

namespace Shadows

theorem told? (shadows : other.Shadows course) (stopped : course.run.HasStopped) :
    other.run.told? = course.run.told? := by
  rcases shadows.run with same | closed
  · rw [same]
  · rw [closed, TaskRun.told?_close stopped]

theorem step (shadows : other.Shadows course) (past : course.Past range)
    (context : TaskContext ε ρ κ) :
    (other.take context .step).Shadows (course.take context .step) := by
  rcases shadows.run with same | closed
  · refine ⟨.inl ?_, ?_, ?_⟩
    · simp only [take, same, shadows.shared]
    · simp only [take, same, shadows.shared]
    · simp only [take, same, shadows.shared]
      exact shadows.trace.append (Trace.late_refl _)
  · obtain ⟨run, shared, late⟩ := course.run.step_close past.stopped past.cleared
      (fun x run => (past.proper.reflects run).atWork) context course.shared
    refine ⟨?_, ?_, ?_⟩
    · simp only [take, closed, shadows.shared]
      exact run
    · simp only [take, closed, shadows.shared]
      exact shared
    · simp only [take, closed, shadows.shared]
      exact shadows.trace.append late

/-- The same close comes to both. -/
theorem close (shadows : other.Shadows course) (context : TaskContext ε ρ κ) :
    (other.take context .close).Shadows (course.take context .close) := by
  refine ⟨.inl ?_, shadows.shared, shadows.trace⟩
  rcases shadows.run with same | closed
  · simp only [take, same]
  · simp only [take, closed, TaskRun.close_close]

/-- A further close comes. -/
theorem closeFurther (shadows : other.Shadows course) (context : TaskContext ε ρ κ) :
    (other.take context .close).Shadows course := by
  refine ⟨.inr ?_, shadows.shared, shadows.trace⟩
  rcases shadows.run with same | closed
  · simp only [take, same]
  · simp only [take, closed, TaskRun.close_close]

/-- As long as no engine is at work the two runs are the same. -/
theorem run_eq (shadows : other.Shadows course) (past : course.Past range)
    (idle : ∀ x, course.run ≠ .executing x) :
    other.run = course.run := by
  rcases shadows.run with same | closed
  · exact same
  · rw [closed, TaskRun.close_of_cleared past.stopped past.cleared idle]

theorem status (shadows : other.Shadows course) (past : course.Past range) :
    other.run.task.status = course.run.task.status ∨
      course.run.phase = .executing ∧ course.run.task.status = ⟨.running, true⟩ ∧
        other.run.task.status = ⟨.closing, false⟩ := by
  rcases course.run.executing_or_idle with ⟨x, run⟩ | idle
  · rcases shadows.run with same | closed
    · left
      rw [same]
    · have atWork := (past.proper.reflects run).atWork
      rw [Reading.IsAtWork] at atWork
      rw [closed, run, TaskRun.close_executing]
      simp only [TaskRun.task, FetchTask.status, Reading.asTask, Reading.taskState, Execution.close,
        Reading.close, atWork]
      cases x.reading.run.running with
      | true => exact .inr ⟨rfl, rfl, rfl⟩
      | false => exact .inl rfl
  · left
    rw [shadows.run_eq past idle]

theorem result? (shadows : other.Shadows course) : other.run.result? = course.run.result? := by
  rcases shadows.run with same | closed
  · rw [same]
  · rw [closed]
    cases course.run <;> rfl

end Shadows

/-! ## Further closes -/

/-- What the engine is told in the course of some turns, one answer for every move that it
is asked for. -/
def told (context : TaskContext ε ρ κ) (course : Course ε ρ κ) :
    List Turn → List (Option StopReason)
  | [] => []
  | .step :: turns => course.run.told?.toList ++ told context (course.take context .step) turns
  | .close :: turns => told context (course.take context .close) turns

theorem told_append (context : TaskContext ε ρ κ) (course : Course ε ρ κ)
    (first second : List Turn) :
    course.told context (first ++ second) =
      course.told context first ++ (course.takeAll context first).told context second := by
  induction first generalizing course with
  | nil => rfl
  | cons turn rest ih =>
    cases turn with
    | close => exact ih (course.take context .close)
    | step => simp only [List.cons_append, told, takeAll_cons, ih, List.append_assoc]

end Course

/-- The second sequence of turns is the first with any number of closes put in anywhere. -/
inductive FurtherCloses : List Turn → List Turn → Prop
  | nil : FurtherCloses [] []
  | keep (turn : Turn) {turns others : List Turn} (rest : FurtherCloses turns others) :
      FurtherCloses (turn :: turns) (turn :: others)
  | close {turns others : List Turn} (rest : FurtherCloses turns others) :
      FurtherCloses turns (.close :: others)

namespace Course

variable {context : TaskContext ε ρ κ} {course other : Course ε ρ κ} {range : Range}

theorem Shadows.takeAll (context : TaskContext ε ρ κ) {turns others : List Turn}
    (further : FurtherCloses turns others) (shadows : other.Shadows course)
    (past : course.Past range) :
    (other.takeAll context others).Shadows (course.takeAll context turns) ∧
      (course.takeAll context turns).Past range ∧
      other.told context others = course.told context turns := by
  -- A further close moves only the other course on, a turn that both share moves both, and either
  -- way the one goes on shadowing the other.
  induction further generalizing course other with
  | nil => exact ⟨shadows, past, rfl⟩
  | close rest ih => exact ih (shadows.closeFurther context) past
  | @keep turn turns others rest ih =>
    cases turn with
    | close => exact ih (shadows.close context) (past.take context .close)
    | step =>
      obtain ⟨later, still, told⟩ := ih (shadows.step past context) (past.take context .step)
      refine ⟨later, still, ?_⟩
      rw [Course.told, Course.told, told, shadows.told? past.stopped]

/-- Once the read of a task has stopped, or the task was closed before it was entered, or its
execution is over, any number of further closes may come at any time: what is handed to the sink and
reported is the same, and so are what the engine is told whenever it is asked for a move, the
result, the state of the task in the end, and what the engine and the sink keep. Who looks at the
task while the engine is at work may see that it is closing instead of running, and that is all
there is to see. -/
theorem late_closes_invisible (context : TaskContext ε ρ κ) (range : Range) (shared : Shared ε κ)
    {before after others : List Turn}
    (stopped : ((start (.create range) shared).takeAll context before).run.HasStopped)
    (further : FurtherCloses after others) :
    let begin : Course ε ρ κ := start (.create range) shared
    let course := begin.takeAll context (before ++ after)
    let other := begin.takeAll context (before ++ others)
    other.trace.attempts = course.trace.attempts ∧ other.trace.reports = course.trace.reports ∧
      begin.told context (before ++ others) = begin.told context (before ++ after) ∧
      other.run.result? = course.run.result? ∧
        (course.run.IsOver → other.run.task = course.run.task) ∧
      (other.run.task.status = course.run.task.status ∨
        course.run.phase = .executing ∧ course.run.task.status = ⟨.running, true⟩ ∧
          other.run.task.status = ⟨.closing, false⟩) ∧
      course.trace.Late other.trace ∧ other.shared = course.shared := by
  intro begin course other
  have past : (begin.takeAll context before).Past range :=
    { proper := proper_takeAll context range shared before
      cleared := cleared_takeAll (proper_takeAll context range shared []) rfl context before
      stopped }
  obtain ⟨shadows, past, told⟩ := Shadows.takeAll context further (shadows_refl _) past
  rw [← takeAll_append, ← takeAll_append] at shadows
  rw [← takeAll_append] at past
  refine ⟨shadows.trace.attempts, shadows.trace.reports, ?_, shadows.result?, ?_,
    shadows.status past, shadows.trace, shadows.shared⟩
  · rw [told_append, told_append, told]
  · intro ended
    rw [shadows.run_eq past]
    intro x run
    rw [run] at ended
    exact ended

/-- A task whose END watermark was taken is closed three times more. The engine sees it closing when
it looks around, and the task is completed nevertheless. -/
theorem completed_though_closed_late :
    let engine := playedEngine
      [.move (.signal (.change (Sample.insert "ORDERS" 150))),
        .move (.signal (.advance (Sample.scn 250))),
        .move .observe, .poll]
    let context : TaskContext Unit (List PlayedMove) PlannedSink :=
      ⟨engine, Sink.outlet PlannedSink.sink, .named "ORCLCDB", .ofMillis 1⟩
    let begin := start (.create Sample.split) ⟨(), ⟨[], [], .fresh⟩⟩
    let before := List.replicate 5 .step
    let after := List.replicate 4 .step
    let others := [.close, .step, .close, .step, .step, .close, .step]
    let course := begin.takeAll context (before ++ after)
    let other := begin.takeAll context (before ++ others)
    let seen (trace : Trace) := trace.filterMap fun
      | .observed status => status.task
      | _ => none
    (begin.takeAll context before).run.HasStopped ∧ FurtherCloses after others ∧
      seen course.trace = [⟨.running, true⟩] ∧ seen other.trace = [⟨.closing, false⟩] ∧
      other.run.result? = some .ok ∧ other.run.task.state = .completed := by
  intro engine context begin before after others course other seen
  have stopped : (begin.takeAll context before).run.HasStopped := rfl
  have further : FurtherCloses after others :=
    .close (.keep _ (.close (.keep _ (.keep _ (.close (.keep _ .nil))))))
  have ended : course.run.IsOver := trivial
  have completed : course.run.task.state = .completed := by decide
  obtain ⟨-, -, -, result, task, -, -, -⟩ :=
    late_closes_invisible context Sample.split ⟨(), ⟨[], [], .fresh⟩⟩ stopped further
  have exited : course.run.result? = some .ok := by decide
  refine ⟨stopped, further, by decide, by decide, result.trans exited, ?_⟩
  rw [task ended]
  exact completed

end Course

end ChangeStream
