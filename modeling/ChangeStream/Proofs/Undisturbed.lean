import ChangeStream.Proofs.Settlement

/-!
# Executions that nobody interferes with

An execution may be left to itself. What can then be seen of it, and where it comes to, does not
depend on the task that it belongs to until its end: the engine has left, or the sink has no room
for a record. What becomes of the task after that depends on the execution at its end alone.
-/

namespace ChangeStream

variable {ε ρ κ : Type}

namespace Execution

/-- Some steps of an execution that nobody else interferes with, and what can be seen of them. -/
inductive Goes (engine : LogEngine ε ρ) (outlet : Outlet κ) :
    Execution ρ → Shared ε κ → Trace → Execution ρ → Shared ε κ → Prop
  | refl (x : Execution ρ) (shared : Shared ε κ) : Goes engine outlet x shared [] x shared
  | step {x middle last : Execution ρ} {shared between after : Shared ε κ} {trace more : Trace}
      (working : x.ending = none) (step : x.step engine outlet shared = (middle, between, trace))
      (rest : Goes engine outlet middle between more last after) :
      Goes engine outlet x shared (trace ++ more) last after

/-- An execution in which nothing happens any more: the engine has left, or the sink has no room
for a record. -/
def AtEnd (outlet : Outlet κ) (x : Execution ρ) (sink : κ) : Prop :=
  x.ending.isSome = true ∨ ∃ record, x.offered = some record ∧ outlet sink record = none

variable {engine : LogEngine ε ρ} {outlet : Outlet κ} {x middle last : Execution ρ}
  {shared between after : Shared ε κ} {trace more : Trace}

theorem Goes.trans (first : Goes engine outlet x shared trace middle between)
    (rest : Goes engine outlet middle between more last after) :
    Goes engine outlet x shared (trace ++ more) last after := by
  induction first with
  | refl => exact rest
  | step working step _ ih =>
    rw [List.append_assoc]
    exact .step working step (ih rest)

theorem Goes.move {move : Move} {progress : ρ} {state : ε} (working : x.ending = none)
    (idle : x.offered = none)
    (next : engine.next x.reading.run.stopReason x.progress shared.engine = (move, progress, state))
    (rest :
      Goes engine outlet ({ x with progress }.perform move).1 { shared with engine := state }
        more last after) :
    Goes engine outlet x shared (({ x with progress }.perform move).2 ++ more) last after :=
  .step working (step_of_move working idle next) rest

/-- A move that nobody sees. -/
theorem Goes.silent {move : Move} {progress : ρ} {state : ε} (working : x.ending = none)
    (idle : x.offered = none)
    (next : engine.next x.reading.run.stopReason x.progress shared.engine = (move, progress, state))
    (silent : ({ x with progress }.perform move).2 = [])
    (rest :
      Goes engine outlet ({ x with progress }.perform move).1 { shared with engine := state }
        more last after) :
    Goes engine outlet x shared more last after := by
  have goes := Goes.move working idle next rest
  rwa [silent, List.nil_append] at goes

theorem Goes.answer {record : Record} {reply : Reply} {state : κ} (working : x.ending = none)
    (offered : x.offered = some record)
    (answered : outlet shared.sink record = some (reply, state))
    (rest :
      Goes engine outlet (x.answer record reply).1 { shared with sink := state } more last after) :
    Goes engine outlet x shared ((x.answer record reply).2 ++ more) last after :=
  .step working (step_of_answer working offered answered) rest

/-- A course goes the way of its execution, as long as the engine is at work. -/
theorem Goes.takeAll {context : TaskContext ε ρ κ}
    (goes : Goes context.engine context.outlet x shared trace last after) (course : Course ε ρ κ)
    (run : course.run = .executing x) (same : course.shared = shared) :
    ∃ steps, let later := course.takeAll context (List.replicate steps .step)
      later.run = .executing last ∧ later.shared = after ∧ later.trace = course.trace ++ trace := by
  induction goes generalizing course with
  | refl => exact ⟨0, run, same, (List.append_nil _).symm⟩
  | @step x middle last shared between after trace more working step rest ih =>
    subst same
    have htake : course.take context .step = _ := Course.take_step_working run working
    rw [step] at htake
    obtain ⟨steps, hrun, hshared, htrace⟩ :=
      ih (course.take context .step) (by rw [htake]) (by rw [htake])
    refine ⟨steps + 1, hrun, hshared, ?_⟩
    rw [List.replicate_succ, Course.takeAll_cons, htrace, htake, List.append_assoc]

end Execution

namespace Course

variable {context : TaskContext ε ρ κ}

/-- What a course does once its engine has left depends on the execution alone. -/
theorem exits_alike {x : Execution ρ} {ending : Ending} (left : x.ending = some ending)
    (context : TaskContext ε ρ κ) :
    ∃ task events, ∀ course : Course ε ρ κ, course.run = .executing x → ∀ steps, 2 ≤ steps →
      let last := course.takeAll context (List.replicate steps .step)
      last.run = .exited task ending.result ∧ last.shared = course.shared ∧
        last.trace = course.trace ++ .ofLogs events := by
  have leaving (course : Course ε ρ κ) (run : course.run = .executing x) :
      course.take context .step = _ :=
    take_step_leaving run left
  obtain ⟨events, logs⟩ := TaskRun.leave_logs (ρ := ρ) x.reading ending
  have form : (∃ task, (TaskRun.leave (ρ := ρ) x.reading ending).1 = .exited task ending.result) ∨
      ∃ task, (TaskRun.leave (ρ := ρ) x.reading ending).1 = .settled task ending.result := by
    cases ending with
    | panicked message => exact .inl ⟨_, rfl⟩
    | failed error => exact .inr ⟨_, rfl⟩
    | returned => exact .inr ⟨_, rfl⟩
  rcases form with ⟨task, leaves⟩ | ⟨task, leaves⟩
  · refine ⟨task, events, fun course run steps enough => ?_⟩
    obtain ⟨steps, rfl⟩ := Nat.exists_eq_add_of_le' enough
    have exited : (course.take context .step).run = .exited task ending.result := by
      rw [leaving course run, leaves]
    rw [List.replicate_succ, takeAll_cons, takeAll_of_exited exited, leaving course run,
      leaves, logs]
    exact ⟨rfl, rfl, rfl⟩
  · obtain ⟨released, hreleased⟩ := task.release_logs
    refine ⟨task.release.1, events ++ (released ++ [.taskFinished task.range.id task.state]),
      fun course run steps enough => ?_⟩
    obtain ⟨steps, rfl⟩ := Nat.exists_eq_add_of_le' enough
    have settled : (course.take context .step).run = .settled task ending.result := by
      rw [leaving course run, leaves]
    have releases : (course.take context .step).take context .step = _ := take_step_settled settled
    have exited : ((course.take context .step).take context .step).run =
        .exited task.release.1 ending.result := by
      rw [releases]
    rw [List.replicate_succ, List.replicate_succ, takeAll_cons, takeAll_cons,
      takeAll_of_exited exited, releases, leaving course run, logs, hreleased]
    exact ⟨rfl, rfl, by simp [Trace.ofLogs]⟩

/-- A course whose task has a result stays as it is. -/
theorem takeAll_of_result {course : Course ε ρ κ} {result : TaskResult}
    (exited : course.run.result? = some result) (steps : Nat) :
    course.takeAll context (List.replicate steps .step) = course := by
  cases run : course.run with
  | exited task result => exact takeAll_of_exited run steps
  | starting | executing | settled =>
    rw [run] at exited
    cases exited

/-- A course stays where the sink has no room. -/
theorem takeAll_of_full {course : Course ε ρ κ} {x : Execution ρ} {record : Record}
    (run : course.run = .executing x) (working : x.ending = none)
    (offered : x.offered = some record) (full : context.outlet course.shared.sink record = none)
    (steps : Nat) :
    let last := course.takeAll context (List.replicate steps .step)
    last.run = .executing x ∧ last.shared = course.shared ∧ last.trace = course.trace := by
  induction steps generalizing course with
  | zero => exact ⟨run, rfl, rfl⟩
  | succ steps ih =>
    have stays : course.take context .step = _ := take_step_working run working
    rw [Execution.step_of_full working offered full] at stays
    have shared : (course.take context .step).shared = course.shared := by rw [stays]
    have trace : (course.take context .step).trace = course.trace := by
      rw [stays]; exact List.append_nil _
    have later := ih (show (course.take context .step).run = .executing x by rw [stays])
      (by rw [shared]; exact full)
    rw [shared, trace] at later
    exact later

/-- What becomes of a course whose execution is at its end depends on that and on the sink. -/
theorem ends_alike {x : Execution ρ} {sink : κ} (context : TaskContext ε ρ κ)
    (ended : x.AtEnd context.outlet sink) :
    ∃ (run : TaskRun ρ) (events : List LogEvent),
      ((∀ state record, (context.outlet state record).isSome = true) →
        ∃ result, run.result? = some result) ∧
      ∀ course : Course ε ρ κ, course.run = .executing x → course.shared.sink = sink →
        ∀ steps, 2 ≤ steps →
          let last := course.takeAll context (List.replicate steps .step)
          last.run = run ∧ last.shared = course.shared ∧
            last.trace = course.trace ++ .ofLogs events := by
  cases working : x.ending with
  | some ending =>
    obtain ⟨task, events, exits⟩ := exits_alike working context
    exact ⟨.exited task ending.result, events, fun _ => ⟨_, rfl⟩,
      fun course run _ => exits course run⟩
  | none =>
    obtain ⟨record, offered, full⟩ :
        ∃ record, x.offered = some record ∧ context.outlet sink record = none := by
      simpa [Execution.AtEnd, working] using ended
    refine ⟨.executing x, [], fun room => ?_, ?_⟩
    · have answered := room sink record
      rw [full] at answered
      cases answered
    · intro course run same steps _
      subst same
      rw [Trace.ofLogs, List.map_nil, List.append_nil]
      exact takeAll_of_full run working offered full steps

end Course

end ChangeStream
