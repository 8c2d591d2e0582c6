import ChangeStream.Engine.Played
import ChangeStream.Proofs.Lifecycle

/-!
# Single use

Once the engine has been called for a task, no other call enters it, and none changes the task. Such
a call is refused, with one exception: a task that ran and was closed cannot be told from one that
was closed before it ran, so that a call that comes after it is not refused but has nothing to do.
-/

namespace ChangeStream

variable {ε ρ κ : Type}

/-! ## The range of a task -/

theorem TaskRun.Step.range {run after : TaskRun ρ} (step : Step run after) :
    after.task.range = run.task.range := by
  cases step with
  | enter created entered => simp only [TaskRun.task, entered]
  | stayOut | rest | settle => rfl
  | work working kept => simp only [TaskRun.task, kept]
  | closeWithin working closed => simp only [TaskRun.task, closed, FetchTask.close]
  | unwind left => exact FetchTask.release_range _
  | release => exact FetchTask.release_range _

/-! ## Calls from inside -/

namespace Trace

/-- What the engine met when it executed the task that it was called by. -/
def reentries (trace : Trace) : List (Option Entry) :=
  trace.filterMap fun
    | .executedAgain entry => some entry
    | _ => none

@[simp] theorem reentries_append (first second : Trace) :
    (first ++ second).reentries = first.reentries ++ second.reentries :=
  List.filterMap_append

@[simp] theorem reentries_ofLogs (events : List LogEvent) : (ofLogs events).reentries = [] := by
  rw [ofLogs, reentries, List.filterMap_map]
  exact List.filterMap_eq_nil_iff.mpr fun _ _ => rfl

end Trace

theorem Reading.conclude_reentries (reading : Reading) (record : Record) (reply : Reply) :
    (reading.conclude record reply).2.reentries = [] := by
  obtain ⟨closes, refusal⟩ := reply
  cases refusal with
  | some error => rfl
  | none =>
    cases record with
    | change split event => rfl
    | watermark event => exact Trace.reentries_ofLogs _

namespace Execution

theorem perform_reentries (x : Execution ρ) (move : Move) :
    (x.perform move).2.reentries = [] ∨
      (x.perform move).2.reentries = [x.reading.task.map (TaskState.entry x.reading.range.id)] := by
  cases move with
  | executeAgain => exact .inr rfl
  | signal signal => exact .inl (Trace.reentries_ofLogs _)
  | finish =>
    left
    simp only [perform, Reading.finish_trace, Trace.reentries_append, Trace.reentries_ofLogs]
    rfl
  | leave ending => cases ending <;> exact .inl rfl
  | idle | wait | fail | close | observe | takeRound | log => exact .inl rfl

/-- An engine that executes its task again meets the entry that belongs to the state
of the moment. -/
theorem Step.reentries {engine : LogEngine ε ρ} {outlet : Outlet κ} {x x' : Execution ρ}
    {shared shared' : Shared ε κ} {deed : Deed} {trace : Trace}
    (h : Step engine outlet x shared deed x' shared' trace) :
    trace.reentries = [] ∨
      trace.reentries = [x.reading.task.map (TaskState.entry x.reading.range.id)] := by
  cases h with
  | nothing => exact .inl rfl
  | answer => exact .inl (x.reading.conclude_reentries _ _)
  | move => exact perform_reentries _ _

end Execution

theorem TaskRun.step_reentries (context : TaskContext ε ρ κ) (run : TaskRun ρ)
    (shared : Shared ε κ) :
    let trace :=
      (run.step context.engine context.outlet context.source context.pollInterval shared).2.2
    trace.reentries = [] ∨ ∃ x, run = .executing x ∧
      trace.reentries = [x.reading.task.map (TaskState.entry x.reading.range.id)] := by
  intro trace
  cases run with
  | starting task =>
    left
    simp only [trace, step]
    split <;> rfl
  | executing x =>
    cases hending : x.ending with
    | some ending =>
      obtain ⟨events, hlogs⟩ := leave_logs (ρ := ρ) x.reading ending
      left
      simp only [trace, step, hending, hlogs, Trace.reentries_ofLogs]
    | none =>
      simp only [trace, step, hending]
      rcases (x.step_spec context.engine context.outlet shared).reentries with none | one
      · exact .inl none
      · exact .inr ⟨x, rfl, one⟩
  | settled task result =>
    obtain ⟨events, hlogs⟩ := task.release_logs
    left
    simp only [trace, step, hlogs, Trace.reentries_append, Trace.reentries_ofLogs]
    rfl
  | exited task result => exact .inl rfl

namespace SharedTask

variable {contexts : Nat → TaskContext ε ρ κ} {s : SharedTask ε ρ κ} {number : Nat}

theorem take_range (s : SharedTask ε ρ κ) (contexts : Nat → TaskContext ε ρ κ) (turn : SharedTurn) :
    (s.take contexts turn).task.range = s.task.range := by
  cases turn with
  | execute | close => rfl
  | step number =>
    cases hcall : s.call? number with
    | none => rw [take_step_none hcall]
    | some run =>
      obtain ⟨after, step, htask, -⟩ := take_step_spec hcall contexts
      rw [htask, step.range, (of_call? hcall).1]

/-- What is true of a task that was made for a range, between any two turns. -/
structure Used (range : Range) (s : SharedTask ε ρ κ) : Prop where
  entered : s.Entered
  range_eq : s.task.range = range
  reentries : ∀ entry ∈ s.trace.reentries, entry = some (.refused (.alreadyExecuted range.id))

theorem Used.take {range : Range} (used : s.Used range) (sound : s.Sound) (turn : SharedTurn) :
    (s.take contexts turn).Used range where
  entered := used.entered.take sound turn
  range_eq := (s.take_range contexts turn).trans used.range_eq
  reentries := by
    cases turn with
    | execute | close => exact used.reentries
    | step number =>
      cases hcall : s.call? number with
      | none => rw [take_step_none hcall]; exact used.reentries
      | some run =>
        simp only [SharedTask.take, hcall, Trace.reentries_append]
        intro entry mem
        rcases List.mem_append.mp mem with earlier | now
        · exact used.reentries entry earlier
        · rcases run.step_reentries (contexts number) s.shared with none | ⟨x, rfl, one⟩
          · rw [none] at now
            cases now
          · -- A call at work keeps the task running or closing, so that the entry is a refusal.
            rw [one] at now
            obtain rfl := List.mem_singleton.mp now
            obtain ⟨htask, hphase, loaded⟩ := of_call? hcall
            have reading := congrArg Execution.reading (TaskRun.executing.inj loaded).symm
            rw [reading]
            simp only [Reading.onTask, used.range_eq, Option.map_some]
            rcases sound.active number hphase with state | state <;> rw [state] <;> rfl

/-- A call that finds the task used has no effect on it, and it is refused unless the
task is closed. -/
theorem take_step_used (waiting : s.phase? number = some .waiting) (used : s.task.state ≠ .created)
    (contexts : Nat → TaskContext ε ρ κ) :
    (s.take contexts (.step number)).task = s.task ∧
      (s.take contexts (.step number)).shared = s.shared ∧
      (s.take contexts (.step number)).trace.calls = s.trace.calls ∧
      (s.take contexts (.step number)).calls[number]? = some (.exited s.task
        (if s.task.state = .closed then .ok else .error (.alreadyExecuted s.task.range.id))) := by
  obtain ⟨call, hcall, hphase⟩ := Option.map_eq_some_iff.mp waiting
  have inside : number < s.calls.length := (List.getElem?_eq_some_iff.mp hcall).1
  cases call with
  | executing | settled | exited => cases hphase
  | starting before =>
    have loaded : s.call? number = some (.starting s.task) := by rw [call?, hcall]; rfl
    cases hstate : s.task.state with
    | created => exact absurd hstate used
    | closed =>
      have closed : s.task.entry = .closedBefore := by rw [FetchTask.entry, hstate]; rfl
      simp only [take, loaded, TaskRun.step, closed, TaskRun.task, List.getElem?_set_self inside,
        Trace.calls_append]
      exact ⟨trivial, trivial, List.append_nil _, rfl⟩
    | running | closing | completed | failed =>
      have refused : s.task.entry = .refused (.alreadyExecuted s.task.range.id) := by
        rw [FetchTask.entry, hstate]; rfl
      simp only [take, loaded, TaskRun.step, refused, TaskRun.task, List.getElem?_set_self inside,
        Trace.calls_append]
      exact ⟨trivial, trivial, List.append_nil _, rfl⟩

/-- Any number of calls execute one task, and any number of parties close it. Once the engine has
been called, a call that comes to the task leaves the state and the flag as they are, does not call
the engine, and is refused in the name of the split; but if the run has left the task closed, it
returns as if it had been closed before it ran. An engine that executes the task which it was called
by is refused always. -/
theorem used_task_refuses_unless_closed (contexts : Nat → TaskContext ε ρ κ) (range : Range)
    (shared : Shared ε κ) (turns : List SharedTurn) (number : Nat) :
    let s : SharedTask ε ρ κ := (start (.create range) shared).takeAll contexts turns
    let later := s.take contexts (.step number)
    (∀ entry ∈ s.trace.reentries, entry = some (.refused (.alreadyExecuted range.id))) ∧
    (s.trace.calls ≠ [] → s.phase? number = some .waiting →
      later.task = s.task ∧ later.shared = s.shared ∧ later.trace.calls = s.trace.calls ∧
      later.calls[number]? = some (.exited s.task
        (if s.task.state = .closed then .ok else .error (.alreadyExecuted range.id)))) := by
  intro s later
  have sound : (start (.create range) shared : SharedTask ε ρ κ).Sound := sound_start range shared
  have used : s.Used range :=
    sound.takeAll_preserves (Used range) (fun _ turn sound used => used.take sound turn)
      ⟨⟨Nat.zero_le 1, fun _ => rfl⟩, rfl, nofun⟩ turns
  refine ⟨used.reentries, fun called waiting => ?_⟩
  rw [← used.range_eq]
  exact take_step_used waiting (fun created => called (used.entered.created created)) contexts

/-- A run that has failed the read leaves its task failed, and the next call on the
task is refused. -/
example :
    let context : TaskContext Unit (List PlayedMove) PlannedSink :=
      ⟨playedEngine [.move .fail, .poll], Sink.outlet PlannedSink.sink,
        .named "ORCLCDB", .ofMillis 1⟩
    let s := (start (.create Sample.split) ⟨(), ⟨[], [], .fresh⟩⟩).takeAll (fun _ => context)
      [.execute, .step 0, .step 0, .step 0, .step 0, .step 0, .execute, .step 1]
    s.task.state = .failed ∧
      (s.calls[1]?.bind TaskRun.result?) = some (.error (.alreadyExecuted Sample.split.id)) := by
  decide

/-- A run closes its task and returns, and the next call on the task is not refused. -/
theorem closed_run_not_refused :
    let context : TaskContext Unit (List PlayedMove) PlannedSink :=
      ⟨playedEngine [.move .close, .poll], Sink.outlet PlannedSink.sink,
        .named "ORCLCDB", .ofMillis 1⟩
    let s :=
      (start (.create (.unbounded ⟨"split-0"⟩ (Sample.scn 100))) ⟨(), ⟨[], [], .fresh⟩⟩).takeAll
      (fun _ => context) [.execute, .step 0, .step 0, .step 0, .step 0, .step 0, .execute]
    let later := s.take (fun _ => context) (.step 1)
    s.trace.calls.length = 1 ∧ s.phase? 0 = some .exited ∧ s.task.state = .closed ∧
      s.phase? 1 = some .waiting ∧ later.phase? 1 = some .exited ∧
      (later.calls[1]?.bind TaskRun.result?) = some .ok ∧
      (later.calls[1]?.bind TaskRun.result?) ≠ some (.error (.alreadyExecuted ⟨"split-0"⟩)) := by
  decide

end SharedTask

end ChangeStream
