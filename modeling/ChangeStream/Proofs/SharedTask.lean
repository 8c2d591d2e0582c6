import ChangeStream.Proofs.Settlement

/-!
# Tasks that several parties use

Any number of calls may execute one task, and any number of parties may close it. A call takes its
steps on its own, but on the task as the others have left it: every turn begins with what the turn
before made of the state and the flag.
-/

namespace ChangeStream

variable {ε ρ κ : Type}

/-- The read, on the task as it is now. -/
def Reading.onTask (reading : Reading) (task : FetchTask) : Reading :=
  { range := task.range, run := reading.run.withFlag task.running, task := some task.state }

/-- A call that executes a task, on the task as it is now. -/
def TaskRun.onTask (run : TaskRun ρ) (task : FetchTask) : TaskRun ρ :=
  match run with
  | .starting _ => .starting task
  | .executing x => .executing { x with reading := x.reading.onTask task }
  | .settled _ result => .settled task result
  | .exited _ result => .exited task result

/-- A task and the calls that execute it, in the order in which they were made. -/
structure SharedTask (ε ρ κ : Type) where
  task : FetchTask
  calls : List (TaskRun ρ)
  shared : Shared ε κ
  trace : Trace

/-- Whose turn it is with a shared task. -/
inductive SharedTurn
  | execute
  | step (number : Nat)
  | close
deriving DecidableEq

namespace SharedTask

/-- A task that nobody has used yet. -/
def start (task : FetchTask) (shared : Shared ε κ) : SharedTask ε ρ κ :=
  { task, calls := [], shared, trace := [] }

/-- The call of a number, on the task as it is now. -/
def call? (s : SharedTask ε ρ κ) (number : Nat) : Option (TaskRun ρ) :=
  s.calls[number]?.map fun call => call.onTask s.task

/-- The phase of the call of a number. -/
def phase? (s : SharedTask ε ρ κ) (number : Nat) : Option Phase :=
  s.calls[number]?.map TaskRun.phase

variable (contexts : Nat → TaskContext ε ρ κ)

/-- The task after a turn. Each call has a context of its own. -/
def take (s : SharedTask ε ρ κ) : SharedTurn → SharedTask ε ρ κ
  | .execute => { s with calls := s.calls ++ [.starting s.task] }
  | .step number =>
    match s.call? number with
    | none => s
    | some call =>
      let context := contexts number
      let (call, shared, trace) :=
        call.step context.engine context.outlet context.source context.pollInterval s.shared
      { task := call.task, calls := s.calls.set number call, shared, trace := s.trace ++ trace }
  | .close => { s with task := s.task.close }

/-- The task after some turns. -/
def takeAll (s : SharedTask ε ρ κ) (turns : List SharedTurn) : SharedTask ε ρ κ :=
  turns.foldl (take contexts) s

@[simp] theorem takeAll_nil (s : SharedTask ε ρ κ) : s.takeAll contexts [] = s := rfl

@[simp] theorem takeAll_cons (s : SharedTask ε ρ κ) (turn : SharedTurn) (turns : List SharedTurn) :
    s.takeAll contexts (turn :: turns) = (s.take contexts turn).takeAll contexts turns := rfl

/-- What every turn preserves is preserved by any number of turns. -/
theorem takeAll_invariant {invariant : SharedTask ε ρ κ → Prop} {contexts : Nat → TaskContext ε ρ κ}
    (preserved : ∀ s turn, invariant s → invariant (s.take contexts turn)) {s : SharedTask ε ρ κ}
    (holds : invariant s) (turns : List SharedTurn) : invariant (s.takeAll contexts turns) := by
  induction turns generalizing s with
  | nil => exact holds
  | cons turn rest ih => exact ih (preserved s turn holds)

end SharedTask

/-! ## What a call does to its task -/

namespace Reading

/-- Nothing but a close within the read changes the task while the engine is at work. -/
theorem after_asTask {reading : Reading} {state : TaskState} (owned : reading.task = some state)
    (deed : Deed) :
    (reading.after deed).asTask = if deed.closes then reading.asTask.close else reading.asTask := by
  cases deed with
  | nothing => rfl
  | answer record reply =>
    simp only [after, conclude_eq, asTask, taskState, owned, Deed.closes]
    cases reply.closes
    · simp
    · simp [FetchTask.close]
  | move move =>
    cases move with
    | close => simp [after, close, asTask, taskState, owned, Deed.closes, FetchTask.close]
    | finish => simp [after, finish_eq, asTask, taskState, Deed.closes]
    | fail => simp [after, fail_eq, asTask, taskState, Deed.closes]
    | signal | idle | wait | observe | takeRound | executeAgain | log | leave => rfl

end Reading

namespace TaskRun

@[simp] theorem onTask_task (run : TaskRun ρ) (task : FetchTask) :
    (run.onTask task).task = task := by
  cases run <;> rfl

@[simp] theorem onTask_phase (run : TaskRun ρ) (task : FetchTask) :
    (run.onTask task).phase = run.phase := by
  cases run <;> rfl

/-- The forms of a step of a call that executes a task. -/
inductive Step : TaskRun ρ → TaskRun ρ → Prop
  | enter {task : FetchTask} {x : Execution ρ} (created : task.state = .created)
      (entered : x.reading.asTask = { task with state := .running, running := true }) :
      Step (.starting task) (.executing x)
  | stayOut {task : FetchTask} {result : TaskResult} (used : task.state ≠ .created) :
      Step (.starting task) (.exited task result)
  | work {x x' : Execution ρ} (working : x.ending = none)
      (kept : x'.reading.asTask = x.reading.asTask) :
      Step (.executing x) (.executing x')
  | closeWithin {x x' : Execution ρ} (working : x.ending = none)
      (closed : x'.reading.asTask = x.reading.asTask.close) : Step (.executing x) (.executing x')
  | settle {x : Execution ρ} {ending : Ending} (left : x.ending = some ending) :
      Step (.executing x) (.settled (x.reading.settle ending).1 ending.result)
  | unwind {x : Execution ρ} {message : String} (left : x.ending = some (.panicked message)) :
      Step (.executing x) (.exited x.reading.asTask.release.1 (.panicked message))
  | release {task : FetchTask} {result : TaskResult} :
      Step (.settled task result) (.exited task.release.1 result)
  | rest {task : FetchTask} {result : TaskResult} : Step (.exited task result) (.exited task result)

variable (context : TaskContext ε ρ κ)

theorem Step.of_executing {x : Execution ρ} {state : TaskState}
    (owned : x.reading.task = some state) (shared : Shared ε κ) :
    Step (.executing x)
      ((executing x).step context.engine context.outlet context.source context.pollInterval
      shared).1 := by
  cases hending : x.ending with
  | some ending =>
    simp only [step, hending]
    cases ending with
    | panicked message => exact .unwind hending
    | returned => exact .settle hending
    | failed error => exact .settle hending
  | none =>
    simp only [step, hending]
    have hreading := (x.step_spec context.engine context.outlet shared).reading
    have htask := Reading.after_asTask owned (x.deed context.engine context.outlet shared)
    rw [← hreading] at htask
    split at htask
    · exact .closeWithin hending htask
    · exact .work hending htask

theorem step_spec (run : TaskRun ρ) (task : FetchTask) (shared : Shared ε κ) :
    Step (run.onTask task)
      ((run.onTask task).step context.engine context.outlet context.source context.pollInterval
        shared).1 := by
  cases run with
  | starting before =>
    cases hstate : task.state with
    | created =>
      have enters : task.entry = .enters := by rw [FetchTask.entry, hstate]; rfl
      simp only [onTask, step, enters]
      exact .enter hstate rfl
    | closed =>
      have closed : task.entry = .closedBefore := by rw [FetchTask.entry, hstate]; rfl
      simp only [onTask, step, closed]
      exact .stayOut (by rw [hstate]; decide)
    | running | closing | completed | failed =>
      have refused : task.entry = .refused (.alreadyExecuted task.range.id) := by
        rw [FetchTask.entry, hstate]; rfl
      simp only [onTask, step, refused]
      exact .stayOut (by rw [hstate]; decide)
  | executing x => exact .of_executing context rfl shared
  | settled before result => exact .release
  | exited before result => exact .rest

end TaskRun

namespace SharedTask

variable {s : SharedTask ε ρ κ} {number : Nat}

theorem phase?_execute (s : SharedTask ε ρ κ) (contexts : Nat → TaskContext ε ρ κ) (other : Nat) :
    (s.take contexts .execute).phase? other =
      if other = s.calls.length then some .waiting else s.phase? other := by
  simp only [take, phase?, List.getElem?_append, List.getElem?_singleton]
  by_cases before : other < s.calls.length
  · rw [if_pos before, if_neg (Nat.ne_of_lt before)]
  · rw [if_neg before]
    by_cases last : other = s.calls.length
    · rw [if_pos last, if_pos (by omega)]
      rfl
    · rw [if_neg last, if_neg (by omega), List.getElem?_eq_none (by omega)]

theorem of_call? {run : TaskRun ρ} (call : s.call? number = some run) :
    run.task = s.task ∧ s.phase? number = some run.phase ∧ run.onTask s.task = run := by
  obtain ⟨before, hbefore, rfl⟩ := Option.map_eq_some_iff.mp call
  refine ⟨before.onTask_task s.task, ?_, ?_⟩
  · rw [phase?, hbefore, Option.map_some, TaskRun.onTask_phase]
  · cases before <;> rfl

/-- A step of a call, seen from the task and the phases of the calls. -/
theorem take_step_spec {run : TaskRun ρ} (call : s.call? number = some run)
    (contexts : Nat → TaskContext ε ρ κ) :
    ∃ after, TaskRun.Step run after ∧ (s.take contexts (.step number)).task = after.task ∧
      ∀ other, (s.take contexts (.step number)).phase? other =
        if other = number then some after.phase else s.phase? other := by
  obtain ⟨-, -, loaded⟩ := of_call? call
  have hstep := TaskRun.step_spec (contexts number) run s.task s.shared
  rw [loaded] at hstep
  refine ⟨_, hstep, by simp only [take, call], ?_⟩
  intro other
  simp only [take, call, phase?, List.getElem?_set]
  by_cases same : number = other
  · subst same
    have inside : number < s.calls.length := by
      obtain ⟨before, hbefore, -⟩ := Option.map_eq_some_iff.mp call
      exact (List.getElem?_eq_some_iff.mp hbefore).1
    rw [if_pos rfl, if_pos inside, if_pos rfl, Option.map_some]
  · rw [if_neg same, if_neg (Ne.symm same)]

theorem take_step_none (none : s.call? number = none) (contexts : Nat → TaskContext ε ρ κ) :
    s.take contexts (.step number) = s := by
  simp only [take, none]

end SharedTask

end ChangeStream
