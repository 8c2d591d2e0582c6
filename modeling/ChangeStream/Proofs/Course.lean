import ChangeStream.Proofs.Execution
import ChangeStream.Proofs.Task

/-!
# Courses of a task

A task that somebody executes goes its course in turns: either the execution takes its next step, or
another party closes the task. The order of the turns is arbitrary. A course remembers what the
state of the task alone does not tell: what could be seen so far, in which phases the task was
closed, be it by another party, by the sink while it had a record, or by the engine, and how the
engine has left.
-/

namespace ChangeStream

variable {ε ρ κ : Type}

/-- What a task is executed with. -/
structure TaskContext (ε ρ κ : Type) where
  engine : LogEngine ε ρ
  outlet : Outlet κ
  source : Source
  pollInterval : Duration

/-- The phases of executing a task. -/
inductive Phase
  | waiting
  /-- The engine is at work, or has left and the task is not settled. -/
  | executing
  /-- The task is settled, but not yet released. -/
  | settled
  | exited
deriving DecidableEq

namespace TaskRun

/-- The phase that a run is in. -/
def phase : TaskRun ρ → Phase
  | starting _ => .waiting
  | executing _ => .executing
  | settled .. => .settled
  | exited .. => .exited

/-- How the engine has left, while the task is not settled. -/
def ending? : TaskRun ρ → Option Ending
  | executing x => x.ending
  | starting _ | settled .. | exited .. => none

/-- What the next step does with the read. -/
def deed (context : TaskContext ε ρ κ) (run : TaskRun ρ) (shared : Shared ε κ) : Deed :=
  match run with
  | executing x => x.deed context.engine context.outlet shared
  | starting _ | settled .. | exited .. => .nothing

end TaskRun

/-- Whose turn it is. -/
inductive Turn
  | step
  | close
deriving DecidableEq

/-- A run of a task and what has happened to it. -/
structure Course (ε ρ κ : Type) where
  run : TaskRun ρ
  shared : Shared ε κ
  trace : Trace
  /-- The phases in which the task was closed, by whomever. -/
  closes : List Phase
  ending : Option Ending

namespace Course

/-- The course of a task that is about to be executed. -/
def start (task : FetchTask) (shared : Shared ε κ) : Course ε ρ κ :=
  { run := .starting task, shared, trace := [], closes := [], ending := none }

variable (context : TaskContext ε ρ κ)

/-- The course after a turn. -/
def take (course : Course ε ρ κ) : Turn → Course ε ρ κ
  | .step =>
    let (run, shared, trace) :=
      course.run.step context.engine context.outlet context.source
        context.pollInterval course.shared
    { run, shared
      trace := course.trace ++ trace
      closes :=
        if (course.run.deed context course.shared).closes then course.closes ++ [.executing]
        else course.closes
      ending := run.ending?.or course.ending }
  | .close => { course with run := course.run.close, closes := course.closes ++ [course.run.phase] }

/-- The course after some turns. -/
def takeAll (course : Course ε ρ κ) (turns : List Turn) : Course ε ρ κ :=
  turns.foldl (take context) course

@[simp] theorem takeAll_nil (course : Course ε ρ κ) : course.takeAll context [] = course := rfl

@[simp] theorem takeAll_cons (course : Course ε ρ κ) (turn : Turn) (turns : List Turn) :
    course.takeAll context (turn :: turns) = (course.take context turn).takeAll context turns := rfl

/-! ## One turn -/

variable {context} {course : Course ε ρ κ}

theorem take_step_entering {task : FetchTask} (run : course.run = .starting task)
    (enters : task.entry = .enters) :
    course.take context .step =
      let begun :=
        Execution.start context.engine context.source
          (task.reading context.pollInterval) course.shared
      { course with
        run := .executing begun.1
        shared := begun.2.1
        trace := course.trace ++ begun.2.2
        ending := begun.1.ending.or course.ending } := by
  simp [take, run, TaskRun.step, enters, TaskRun.deed, Deed.closes, TaskRun.ending?]

theorem take_step_closedBefore {task : FetchTask} (run : course.run = .starting task)
    (closed : task.entry = .closedBefore) :
    course.take context .step =
      { course with
        run := .exited task .ok
        trace := course.trace ++ [.logged (.closedBeforeExecution task.range.id)] } := by
  simp [take, run, TaskRun.step, closed, TaskRun.deed, Deed.closes, TaskRun.ending?]

theorem take_step_working {x : Execution ρ} (run : course.run = .executing x)
    (working : x.ending = none) :
    course.take context .step =
      let result := x.step context.engine context.outlet course.shared
      { run := .executing result.1
        shared := result.2.1
        trace := course.trace ++ result.2.2
        closes :=
          if (x.deed context.engine context.outlet course.shared).closes then
            course.closes ++ [.executing]
          else course.closes
        ending := result.1.ending.or course.ending } := by
  simp only [take, run, TaskRun.step, working, TaskRun.deed, TaskRun.ending?]

theorem take_step_leaving {x : Execution ρ} {ending : Ending} (run : course.run = .executing x)
    (left : x.ending = some ending) :
    course.take context .step =
      { course with
        run := (TaskRun.leave x.reading ending).1
        trace := course.trace ++ (TaskRun.leave (ρ := ρ) x.reading ending).2 } := by
  cases ending <;>
    simp [take, run, TaskRun.step, left, TaskRun.deed, Execution.deed, Deed.closes, TaskRun.leave,
      TaskRun.ending?]

theorem take_step_settled {task : FetchTask} {result : TaskResult}
    (run : course.run = .settled task result) :
    course.take context .step =
      { course with
        run := .exited task.release.1 result
        trace :=
          course.trace ++
            (task.release.2 ++ [.logged (.taskFinished task.range.id task.state)]) } := by
  simp [take, run, TaskRun.step, TaskRun.deed, Deed.closes, TaskRun.ending?]

theorem take_step_exited {task : FetchTask} {result : TaskResult}
    (run : course.run = .exited task result) :
    course.take context .step = course := by
  obtain ⟨run, shared, trace, closes, ending⟩ := course
  cases run
  simp_all [take, TaskRun.step, TaskRun.deed, Deed.closes, TaskRun.ending?]

/-! ## Closing in time -/

/-- Whether the task was closed after it was entered and before it was settled. -/
def closedInTime (course : Course ε ρ κ) : Bool := decide (.executing ∈ course.closes)

theorem closedInTime_close (course : Course ε ρ κ) (context : TaskContext ε ρ κ) :
    (course.take context .close).closedInTime =
      (course.closedInTime || decide (course.run.phase = .executing)) := by
  simp [take, closedInTime, eq_comm]

theorem closedInTime_step (course : Course ε ρ κ) (context : TaskContext ε ρ κ) :
    (course.take context .step).closedInTime =
      (course.closedInTime || (course.run.deed context course.shared).closes) := by
  cases hcloses : (course.run.deed context course.shared).closes <;>
    simp [take, closedInTime, hcloses]

/-- What a turn that comes after the engine has left leaves as it was. -/
structure Later (course later : Course ε ρ κ) : Prop where
  logs : ∃ events, later.trace = course.trace ++ .ofLogs events
  ending : later.ending = course.ending
  closes : later.closedInTime = course.closedInTime
  idle : ∀ x, later.run ≠ .executing x

theorem later_of_leaving {x : Execution ρ} {ending : Ending} (run : course.run = .executing x)
    (left : x.ending = some ending) : course.Later (course.take context .step) := by
  rw [take_step_leaving run left]
  obtain ⟨events, hlogs⟩ := TaskRun.leave_logs (ρ := ρ) x.reading ending
  refine ⟨⟨events, congrArg (course.trace ++ ·) hlogs⟩, rfl, rfl, ?_⟩
  intro y hy
  cases ending <;> cases hy

theorem later_of_settled {task : FetchTask} {result : TaskResult}
    (run : course.run = .settled task result) (context : TaskContext ε ρ κ) (turn : Turn) :
    course.Later (course.take context turn) := by
  cases turn with
  | close =>
    refine ⟨⟨[], (List.append_nil course.trace).symm⟩, rfl, ?_, ?_⟩
    · rw [closedInTime_close, run, decide_eq_false (by nofun), Bool.or_false]
    · intro x executing
      rw [take, run] at executing
      cases executing
  | step =>
    rw [take_step_settled run]
    obtain ⟨events, hlogs⟩ := task.release_logs
    refine ⟨⟨events ++ [.taskFinished task.range.id task.state], ?_⟩, rfl, rfl, fun x => nofun⟩
    rw [hlogs, Trace.ofLogs, Trace.ofLogs, List.map_append]
    rfl

theorem later_of_exited {task : FetchTask} {result : TaskResult}
    (run : course.run = .exited task result) (context : TaskContext ε ρ κ) (turn : Turn) :
    course.Later (course.take context turn) := by
  cases turn with
  | close =>
    refine ⟨⟨[], (List.append_nil course.trace).symm⟩, rfl, ?_, ?_⟩
    · rw [closedInTime_close, run, decide_eq_false (by nofun), Bool.or_false]
    · intro x executing
      rw [take, run] at executing
      cases executing
  | step =>
    rw [take_step_exited run]
    refine ⟨⟨[], (List.append_nil course.trace).symm⟩, rfl, rfl, ?_⟩
    intro x executing
    cases run.symm.trans executing

/-! ## Many turns -/

theorem takeAll_append (context : TaskContext ε ρ κ) (course : Course ε ρ κ)
    (first second : List Turn) :
    course.takeAll context (first ++ second) =
      (course.takeAll context first).takeAll context second :=
  List.foldl_append

theorem takeAll_of_exited {task : FetchTask} {result : TaskResult}
    (run : course.run = .exited task result) (steps : Nat) :
    course.takeAll context (List.replicate steps .step) = course := by
  induction steps with
  | zero => rfl
  | succ steps ih => rw [List.replicate_succ, takeAll_cons, take_step_exited run, ih]

/-- What every turn preserves is preserved by a course. -/
theorem takeAll_invariant {invariant : Course ε ρ κ → Prop}
    (preserved : ∀ course turn, invariant course → invariant (course.take context turn))
    {course : Course ε ρ κ} (holds : invariant course) (turns : List Turn) :
    invariant (course.takeAll context turns) := by
  induction turns generalizing course with
  | nil => exact holds
  | cons turn rest ih => exact ih (preserved course turn holds)

end Course

end ChangeStream
