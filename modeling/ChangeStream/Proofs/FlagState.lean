import ChangeStream.Sample
import ChangeStream.Engine.Scripted
import ChangeStream.Sink.Recording
import ChangeStream.Proofs.SharedTask

/-!
# The flag and the state of a shared task

The flag of a task is written by the call that enters it, by every close, by the settlement and once
more by the release, while the state is written by others in between. They agree all the same,
because of three facts about the calls: one at most is at work, a call at work keeps the task
running or closing, and a settled task is in a terminal state, which nothing changes any more.
-/

namespace ChangeStream

variable {ε ρ κ : Type}

/-- A task that has been entered and is not settled. -/
def TaskState.IsActive (state : TaskState) : Prop := state = .running ∨ state = .closing

namespace TaskState

variable {state : TaskState}

theorem IsActive.afterClose (active : state.IsActive) : state.afterClose.IsActive := by
  rcases active with rfl | rfl <;> exact .inr rfl

theorem IsActive.not_terminal (active : state.IsActive) : state.isTerminal = false := by
  rcases active with rfl | rfl <;> rfl

theorem IsActive.not_created (active : state.IsActive) : state ≠ .created := by
  rcases active with rfl | rfl <;> nofun

end TaskState

/-! ## The task alone -/

namespace FetchTask

/-- The flag is set exactly while the task is running. -/
def Consistent (task : FetchTask) : Prop := task.running = true ↔ task.state = .running

variable {task : FetchTask}

theorem consistent_of_cleared (cleared : task.running = false) (state : task.state ≠ .running) :
    task.Consistent := by
  rw [Consistent, cleared]
  exact ⟨nofun, fun running => absurd running state⟩

theorem close_consistent (task : FetchTask) : task.close.Consistent := by
  refine consistent_of_cleared rfl ?_
  cases hstate : task.state <;> simp [close, hstate, TaskState.afterClose]

theorem release_consistent (task : FetchTask) : task.release.1.Consistent :=
  consistent_of_cleared task.release_running task.release_not_running

theorem settle_consistent (reading : Reading) (ending : Ending) :
    (reading.settle ending).1.Consistent := by
  refine consistent_of_cleared rfl ?_
  intro running
  have terminal := settledState_terminal ending reading.run.stopReason reading.taskState
  rw [show settledState ending reading.run.stopReason reading.taskState =
    .running from running] at terminal
  cases terminal

end FetchTask

/-- Every step of a call leaves the flag and the state in agreement. -/
theorem TaskRun.Step.consistent {run after : TaskRun ρ} (step : Step run after)
    (before : run.task.Consistent) : after.task.Consistent := by
  cases step with
  | enter created entered =>
    rw [TaskRun.task, entered]
    exact ⟨fun _ => rfl, fun _ => rfl⟩
  | stayOut used => exact before
  | work working kept =>
    rw [TaskRun.task, kept]
    exact before
  | closeWithin working closed =>
    rw [TaskRun.task, closed]
    exact FetchTask.close_consistent _
  | settle left => exact FetchTask.settle_consistent _ _
  | unwind left => exact FetchTask.release_consistent _
  | release => exact FetchTask.release_consistent _
  | rest => exact before

/-! ## The task and its calls -/

namespace SharedTask

/-- What holds of a shared task and of the calls that execute it between any two turns. -/
structure Sound (s : SharedTask ε ρ κ) : Prop where
  flag : s.task.Consistent
  active : ∀ number, s.phase? number = some .executing → s.task.state.IsActive
  single : ∀ number other, s.phase? number = some .executing → s.phase? other = some .executing →
    other = number
  settled : ∀ number, s.phase? number = some .settled → s.task.state.isTerminal = true

variable {s : SharedTask ε ρ κ} {number : Nat}

theorem sound_start (range : Range) (shared : Shared ε κ) :
    (start (.create range) shared : SharedTask ε ρ κ).Sound where
  flag := ⟨nofun, nofun⟩
  active _ executing := nomatch executing
  single _ _ executing := nomatch executing
  settled _ settled := nomatch settled

/-- Where a call is at work the task is not settled. -/
theorem Sound.not_settled (h : s.Sound) (executing : s.phase? number = some .executing)
    (other : Nat) :
    s.phase? other ≠ some .settled := by
  intro settled
  have terminal := h.settled other settled
  rw [(h.active number executing).not_terminal] at terminal
  cases terminal

theorem Sound.execute (h : s.Sound) (contexts : Nat → TaskContext ε ρ κ) :
    (s.take contexts .execute).Sound := by
  have hphase : ∀ {other : Nat} {phase : Phase}, phase ≠ .waiting →
      (s.take contexts .execute).phase? other = some phase → s.phase? other = some phase := by
    intro other phase hwaiting hother
    rw [phase?_execute] at hother
    split at hother
    · exact absurd (Option.some.inj hother).symm hwaiting
    · exact hother
  exact
    { flag := h.flag
      active := fun number executing => h.active number (hphase nofun executing)
      single := fun number other first second =>
        h.single number other (hphase nofun first) (hphase nofun second)
      settled := fun number settled => h.settled number (hphase nofun settled) }

theorem Sound.close (h : s.Sound) (contexts : Nat → TaskContext ε ρ κ) :
    (s.take contexts .close).Sound where
  flag := s.task.close_consistent
  active number executing := (h.active number executing).afterClose
  single := h.single
  settled number settled := by
    have terminal := h.settled number settled
    change s.task.state.afterClose.isTerminal = true
    rwa [TaskState.afterClose_of_isTerminal terminal]

/-- After a step of a call the task is sound if the call and the others are as they should be. -/
theorem Sound.of_phases (h : s.Sound) {later : SharedTask ε ρ κ} {after : TaskRun ρ}
    (flag : later.task.Consistent)
    (phases :
      ∀ other, later.phase? other = if other = number then some after.phase else s.phase? other)
    (active : after.phase = .executing →
      later.task.state.IsActive ∧ ∀ other, s.phase? other = some .executing → other = number)
    (settled : after.phase = .settled → later.task.state.isTerminal = true)
    (othersActive :
      ∀ other, other ≠ number → s.phase? other = some .executing → later.task.state.IsActive)
    (othersSettled : ∀ other, s.phase? other = some .settled → later.task.state.isTerminal = true) :
    later.Sound where
  flag := flag
  active other executing := by
    rw [phases] at executing
    split at executing
    · exact (active (Option.some.inj executing)).1
    · next different => exact othersActive other different executing
  single first second hfirst hsecond := by
    rw [phases] at hfirst hsecond
    split at hfirst <;> split at hsecond
    · next same same' => rw [same, same']
    · next same _ => rw [same]; exact (active (Option.some.inj hfirst)).2 second hsecond
    · next _ same => rw [same]; exact ((active (Option.some.inj hsecond)).2 first hfirst).symm
    · exact h.single first second hfirst hsecond
  settled other hsettled := by
    rw [phases] at hsettled
    split at hsettled
    · exact settled (Option.some.inj hsettled)
    · exact othersSettled other hsettled

/-- A step that leaves the state of the task alone, and with which no call begins its work. -/
theorem Sound.of_same_state (h : s.Sound) {later : SharedTask ε ρ κ} {after : TaskRun ρ}
    (flag : later.task.Consistent)
    (phases :
      ∀ other, later.phase? other = if other = number then some after.phase else s.phase? other)
    (same : later.task.state = s.task.state)
    (executing : after.phase = .executing → s.phase? number = some .executing)
    (settled : after.phase ≠ .settled) : later.Sound := by
  refine h.of_phases flag phases ?_ (fun hsettled => absurd hsettled settled) ?_ ?_
  · intro hexecuting
    have before := executing hexecuting
    refine ⟨?_, fun other => h.single number other before⟩
    rw [same]
    exact h.active number before
  · intro other _ hother
    rw [same]
    exact h.active other hother
  · intro other hother
    rw [same]
    exact h.settled other hother

theorem Sound.step {run : TaskRun ρ} (h : s.Sound) (call : s.call? number = some run)
    (contexts : Nat → TaskContext ε ρ κ) : (s.take contexts (.step number)).Sound := by
  obtain ⟨after, step, htask, phases⟩ := take_step_spec call contexts
  obtain ⟨hrun, hphase, -⟩ := of_call? call
  have flag : (s.take contexts (.step number)).task.Consistent := by
    rw [htask]
    exact step.consistent (hrun ▸ h.flag)
  have hstate := congrArg FetchTask.state hrun
  cases step with
  | enter created entered =>
    -- A call at work or a settled one would contradict that the task is still created.
    have nobody : ∀ other, s.phase? other ≠ some .executing := fun other executing =>
      (h.active other executing).not_created (hstate.symm.trans created)
    refine h.of_phases flag phases (fun _ => ⟨?_, ?_⟩) nofun ?_ ?_
    · rw [htask, TaskRun.task, entered]
      exact .inl rfl
    · exact fun other executing => absurd executing (nobody other)
    · exact fun other _ executing => absurd executing (nobody other)
    · intro other settled
      have terminal := h.settled other settled
      rw [← hstate, TaskRun.task, created] at terminal
      cases terminal
  | stayOut used =>
    have same := congrArg FetchTask.state (htask.trans hrun)
    exact h.of_same_state flag phases same nofun nofun
  | work working kept =>
    have same := congrArg FetchTask.state ((htask.trans kept).trans hrun)
    exact h.of_same_state flag phases same (fun _ => hphase) nofun
  | closeWithin working closed =>
    -- A close while the engine works: running becomes closing, and the flag is cleared with it.
    have active : (s.take contexts (.step number)).task.state.IsActive := by
      rw [(htask.trans closed).trans (congrArg FetchTask.close hrun)]
      exact (h.active number hphase).afterClose
    refine h.of_phases flag phases (fun _ => ⟨active, fun other => h.single number other hphase⟩)
      nofun ?_ ?_
    · exact fun _ _ _ => active
    · exact fun other settled => absurd settled (h.not_settled hphase other)
  | settle left =>
    have terminal : (s.take contexts (.step number)).task.state.isTerminal = true := by
      rw [htask]
      exact settledState_terminal _ _ _
    refine h.of_phases flag phases nofun (fun _ => terminal) ?_ (fun _ _ => terminal)
    exact fun other different executing => absurd (h.single number other hphase executing) different
  | unwind left =>
    refine h.of_phases flag phases nofun nofun ?_ ?_
    · exact fun other different executing =>
        absurd (h.single number other hphase executing) different
    · exact fun other settled => absurd settled (h.not_settled hphase other)
  | @release task result =>
    -- The flag is written a second time here, after the settlement; the state is terminal by then.
    have terminal : task.state.isTerminal = true := by
      rw [show task.state = s.task.state from hstate]
      exact h.settled number hphase
    have same : (s.take contexts (.step number)).task.state = s.task.state := by
      rw [htask, ← hstate]
      exact FetchTask.release_state_of_isTerminal terminal
    exact h.of_same_state flag phases same nofun nofun
  | rest =>
    have same := congrArg FetchTask.state (htask.trans hrun)
    exact h.of_same_state flag phases same nofun nofun

theorem Sound.take (h : s.Sound) (contexts : Nat → TaskContext ε ρ κ) (turn : SharedTurn) :
    (s.take contexts turn).Sound := by
  cases turn with
  | execute => exact h.execute contexts
  | close => exact h.close contexts
  | step number =>
    cases hcall : s.call? number with
    | none => rwa [take_step_none hcall]
    | some run => exact h.step hcall contexts

/-- What a call that is at work finds: its context runs exactly while the task does, and a context
that is stopped by its flag belongs to a task that is closing. -/
theorem Sound.at_work {x : Execution ρ} (h : s.Sound)
    (call : s.call? number = some (.executing x)) :
    (x.reading.run.stopReason = none → x.reading.taskState = .running) ∧
      (x.reading.run.stopReason = some .closed → x.reading.taskState = .closing) := by
  obtain ⟨htask, hphase, -⟩ := of_call? call
  have flag : x.reading.asTask.Consistent := by
    rw [show x.reading.asTask = s.task from htask]
    exact h.flag
  have active : x.reading.taskState.IsActive := by
    rw [show x.reading.taskState = s.task.state from congrArg FetchTask.state htask]
    exact h.active number hphase
  constructor
  · intro unstopped
    exact flag.mp ((RunContext.stopReason_eq_none_iff _).mp unstopped).2
  · intro closed
    have cleared := ((RunContext.stopReason_eq_closed_iff _).mp closed).2
    rcases active with running | closing
    · cases cleared.symm.trans (flag.mpr running)
    · exact closing

/-- Any number of calls execute one task, each with an engine and a sink of its own, and any number
of parties close it, in any order of their steps. Between any two steps the flag is set if and only
if the state is running. So an engine that returns while nothing has stopped its read never leaves a
task that is closing, and a read is stopped by its flag only if the task is closing. -/
theorem running_iff_state_running (contexts : Nat → TaskContext ε ρ κ) (range : Range)
    (shared : Shared ε κ) (turns : List SharedTurn) :
    let s := (start (.create range) shared).takeAll contexts turns
    (s.task.running = true ↔ s.task.state = .running) ∧
      ∀ number x, s.call? number = some (.executing x) →
        ¬ (x.ending = some .returned ∧ x.reading.run.stopReason = none ∧
          x.reading.taskState = .closing) ∧
          (x.reading.run.stopReason = some .closed → x.reading.taskState = .closing) := by
  intro s
  have sound : s.Sound :=
    takeAll_invariant (fun _ turn h => h.take contexts turn) (sound_start range shared) turns
  refine ⟨sound.flag, ?_⟩
  intro number x call
  obtain ⟨unstopped, closed⟩ := sound.at_work call
  refine ⟨?_, closed⟩
  rintro ⟨-, none, closing⟩
  cases (unstopped none).symm.trans closing

/-- Of two calls one enters the task, which is then closed. The engine of that call returns, and it
has seen the read stopped. -/
theorem closing_seen_by_first_of_two :
    let context : TaskContext Script ScriptRun PlannedSink :=
      ⟨scriptedEngine, Sink.outlet PlannedSink.sink, .named "ORCLCDB", .ofMillis 1⟩
    let script := Script.ofSteps [.change (Sample.insert "ORDERS" 150), .advance (Sample.scn 250)]
    let s := (start (.create Sample.split) ⟨script, ⟨[], [], .fresh⟩⟩).takeAll (fun _ => context)
      [.execute, .execute, .step 1, .step 0, .step 1, .close, .step 1, .step 1]
    s.task.running = false ∧ ∃ x, s.call? 1 = some (.executing x) ∧ x.ending = some .returned ∧
      x.reading.taskState = .closing ∧ x.reading.run.stopReason ≠ none := by
  intro context script s
  have law := running_iff_state_running (fun _ => context) Sample.split ⟨script, ⟨[], [], .fresh⟩⟩
    [.execute, .execute, .step 1, .step 0, .step 1, .close, .step 1, .step 1]
  have closing : s.task.state = .closing := by decide
  have left : (s.call? 1).bind TaskRun.ending? = some .returned := by decide
  obtain ⟨call, hcall, hending⟩ := Option.bind_eq_some_iff.mp left
  constructor
  · rw [Bool.eq_false_iff]
    intro running
    cases closing.symm.trans (law.1.mp running)
  · cases call with
    | executing x =>
      have hstate : x.reading.taskState = .closing :=
        (congrArg FetchTask.state (of_call? hcall).1).trans closing
      exact ⟨x, hcall, hending, hstate, fun unstopped =>
        (law.2 1 x hcall).1 ⟨hending, unstopped, hstate⟩⟩
    | starting | settled | exited => cases hending

end SharedTask

end ChangeStream
