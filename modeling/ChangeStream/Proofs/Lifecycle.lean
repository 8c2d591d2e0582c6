import Mathlib.Data.List.Chain
import Mathlib.Data.List.Induction
import ChangeStream.Proofs.FlagState

/-!
# The life of a shared task

Whoever executes and closes a task, in any order of their steps, its state moves forward only: a
task is entered once, or closed before that; a running task is closing before it is closed; and a
terminal state is the last one. The settlement writes the state without looking at the one before,
so that this rests on what holds between two turns: who is at work, and why the context of the call
at work has stopped.
-/

namespace ChangeStream

variable {ε ρ κ : Type}

/-! ## Forward through the states -/

namespace TaskState

/-- The states that a task may pass to next. -/
def successors : TaskState → List TaskState
  | created => [running, closed]
  | running => [closing, completed, failed]
  | closing => [completed, closed, failed]
  | completed | closed | failed => []

/-- Whether a task may pass from one state to the other. -/
def Passes (before after : TaskState) : Prop := after ∈ before.successors

instance (before after : TaskState) : Decidable (before.Passes after) :=
  inferInstanceAs (Decidable (after ∈ before.successors))

/-- How far a task has come. -/
def progress : TaskState → Nat
  | created => 0
  | running => 1
  | closing => 2
  | completed | closed | failed => 3

theorem Passes.progress_lt {before after : TaskState} (passes : before.Passes after) :
    before.progress < after.progress := by
  cases before <;> cases after <;> revert passes <;> decide

/-- A terminal state is the last one. -/
theorem eq_nil_of_isChain_terminal {state : TaskState} {rest : List TaskState}
    (chain : (state :: rest).IsChain Passes) (terminal : state.isTerminal = true) : rest = [] := by
  cases rest with
  | nil => rfl
  | cons next rest =>
    have passes : next ∈ state.successors := (List.isChain_cons_cons.mp chain).1
    cases state with
    | created | running | closing => cases terminal
    | completed | closed | failed => exact absurd passes List.not_mem_nil

/-- A task that goes forward only is in no state twice. -/
theorem nodup_of_isChain {path : List TaskState} (chain : path.IsChain Passes) : path.Nodup := by
  have : Trans (fun before after : TaskState => before.progress < after.progress)
      (fun before after : TaskState => before.progress < after.progress)
      (fun before after : TaskState => before.progress < after.progress) := ⟨Nat.lt_trans⟩
  have ascending := (chain.imp fun _ _ => Passes.progress_lt).pairwise
  refine ascending.imp ?_
  rintro before after less rfl
  exact Nat.lt_irrefl _ less

theorem closing_mem_of_running {rest : List TaskState} (chain : (.running :: rest).IsChain Passes)
    (closed : .closed ∈ rest) : .closing ∈ rest := by
  cases rest with
  | nil => cases closed
  | cons next rest =>
    obtain ⟨passes, chain⟩ := List.isChain_cons_cons.mp chain
    by_cases terminal : next.isTerminal = true
    · -- The task has ended without closing, and in a state that is not closed.
      obtain rfl := eq_nil_of_isChain_terminal chain terminal
      obtain rfl := List.mem_singleton.mp closed
      exact absurd passes (by decide)
    · cases next with
      | closing => exact List.mem_cons_self
      | created | running => exact absurd passes (by decide)
      | completed | closed | failed => exact absurd rfl terminal

/-- A running task comes to be closed only by way of closing. -/
theorem closing_mem_of_isChain {path : List TaskState} (chain : path.IsChain Passes)
    (running : .running ∈ path) (closed : .closed ∈ path) : .closing ∈ path := by
  induction path with
  | nil => cases running
  | cons state rest ih =>
    rcases List.mem_cons.mp running with rfl | later
    · have later := (List.mem_cons.mp closed).resolve_left nofun
      exact List.mem_cons_of_mem _ (closing_mem_of_running chain later)
    · rcases List.mem_cons.mp closed with rfl | closed
      · rw [eq_nil_of_isChain_terminal chain rfl] at later
        exact absurd later List.not_mem_nil
      · exact List.mem_cons_of_mem _ (ih chain.tail later closed)

end TaskState

/-! ## What a turn does to the state -/

/-- What a turn may do to the state of a task, given whether the turn closes it. -/
inductive TaskState.Change (closes : Bool) : TaskState → TaskState → Prop
  | none {state : TaskState} : Change closes state state
  | enter : Change closes .created .running
  | close {state : TaskState} (closing : closes = true) : Change closes state state.afterClose
  /-- The call at work has been left by its engine. -/
  | leave {state after : TaskState} (active : state.IsActive) (terminal : after.isTerminal = true)
      (closed : after = .closed → state = .closing) : Change closes state after

namespace TaskState.Change

variable {closes : Bool} {before after : TaskState}

theorem eq_or_passes (change : Change closes before after) :
    after = before ∨ before.Passes after := by
  cases change with
  | none => exact .inl rfl
  | enter => exact .inr (by decide)
  | close closing => cases before <;> first | exact .inl rfl | exact .inr (by decide)
  | leave active terminal closed =>
    right
    rcases active with rfl | rfl
    · cases after with
      | completed | failed => decide
      | closed => cases closed rfl
      | created | running | closing => cases terminal
    · cases after with
      | completed | closed | failed => decide
      | created | running | closing => cases terminal

theorem eq_of_isTerminal (change : Change closes before after)
    (terminal : before.isTerminal = true) :
    after = before := by
  cases change with
  | none => rfl
  | enter => cases terminal
  | close closing => exact afterClose_of_isTerminal terminal
  | leave active => rw [active.not_terminal] at terminal; cases terminal

/-- A task is closing or closed because it was so, or because the turn closes it. -/
theorem closes_of_closed (change : Change closes before after)
    (closed : after = .closing ∨ after = .closed) :
    (before = .closing ∨ before = .closed) ∨ closes = true := by
  cases change with
  | none => exact .inl closed
  | enter => rcases closed with h | h <;> cases h
  | close closing => exact .inr closing
  | leave active terminal fromClosing =>
    rcases closed with rfl | rfl
    · cases terminal
    · exact .inl (.inl (fromClosing rfl))

theorem created_of_created (change : Change closes before after) (created : after = .created) :
    before = .created := by
  cases change with
  | none => exact created
  | enter => cases created
  | close closing => cases before <;> cases created
  | leave active terminal => rw [created] at terminal; cases terminal

end TaskState.Change

theorem FetchTask.release_state_of_isActive {task : FetchTask} (active : task.state.IsActive) :
    task.release.1.state = .failed := by
  unfold release
  rcases active with state | state <;> rw [state]

/-- A task is settled as closed because its flag had stopped the read, or because it was closing. -/
theorem settledState_closed {ending : Ending} {reason : Option StopReason} {state : TaskState}
    (closed : settledState ending reason state = .closed) :
    reason = some .closed ∨ reason = none ∧ state = .closing := by
  unfold settledState at closed
  split at closed
  · cases closed
  · cases closed
  · cases closed
  · exact .inl rfl
  · split at closed
    · next closing => exact .inr ⟨rfl, closing⟩
    · cases closed

namespace SharedTask

variable (contexts : Nat → TaskContext ε ρ κ)

/-- Whether a turn closes the task: a party does, or else the sink or the engine of the call
whose turn it is. -/
def closedBy (s : SharedTask ε ρ κ) : SharedTurn → Bool
  | .execute => false
  | .step number => (s.call? number).any fun call => (call.deed (contexts number) s.shared).closes
  | .close => true

variable {contexts} {s : SharedTask ε ρ κ} {number : Nat}

/-- While the engine is at work a step closes the task or leaves it alone. -/
theorem take_step_working {x : Execution ρ} (call : s.call? number = some (.executing x))
    (working : x.ending = none) :
    (s.take contexts (.step number)).task =
      if s.closedBy contexts (.step number) then s.task.close else s.task := by
  obtain ⟨htask, -, loaded⟩ := of_call? call
  have owned : x.reading.task = some s.task.state :=
    congrArg (fun y : Execution ρ => y.reading.task) (TaskRun.executing.inj loaded).symm
  have hreading := (x.step_spec (contexts number).engine (contexts number).outlet s.shared).reading
  have after :=
    Reading.after_asTask owned (x.deed (contexts number).engine (contexts number).outlet s.shared)
  rw [← hreading, show x.reading.asTask = s.task from htask] at after
  simpa only [take, closedBy, call, TaskRun.step, working, TaskRun.task,
    Option.any_some, TaskRun.deed]
    using after

theorem Sound.change (h : s.Sound) (contexts : Nat → TaskContext ε ρ κ) (turn : SharedTurn) :
    TaskState.Change (s.closedBy contexts turn) s.task.state (s.take contexts turn).task.state := by
  cases turn with
  | execute => exact .none
  | close => exact .close rfl
  | step number =>
    cases hcall : s.call? number with
    | none =>
      rw [take_step_none hcall]
      exact .none
    | some run =>
      obtain ⟨after, step, htask, -⟩ := take_step_spec hcall contexts
      obtain ⟨hrun, hphase, -⟩ := of_call? hcall
      have hbefore : run.task.state = s.task.state := congrArg FetchTask.state hrun
      cases step with
      | enter created entered =>
        rw [htask, ← hbefore]
        simp only [TaskRun.task, entered, created]
        exact .enter
      | stayOut used | rest =>
        rw [htask, ← hbefore]
        exact .none
      | work working kept =>
        rw [htask, ← hbefore]
        simp only [TaskRun.task, kept]
        exact .none
      | closeWithin working closed =>
        rw [take_step_working hcall working]
        split
        · next closing => exact .close closing
        · exact .none
      | settle left =>
        rw [htask]
        refine .leave (h.active number hphase) (settledState_terminal _ _ _) fun closed => ?_
        rcases settledState_closed closed with stopped | ⟨-, closing⟩
        · exact hbefore.symm.trans ((h.at_work hcall).2 stopped)
        · exact hbefore.symm.trans closing
      | @unwind x message left =>
        have active : x.reading.asTask.state.IsActive := hbefore.symm ▸ h.active number hphase
        rw [htask, ← hbefore]
        simp only [TaskRun.task, FetchTask.release_state_of_isActive active]
        refine .leave active rfl fun closed => ?_
        cases closed
      | @release task result =>
        have terminal : task.state.isTerminal = true := hbefore.symm ▸ h.settled number hphase
        rw [htask, ← hbefore]
        simp only [TaskRun.task, FetchTask.release_state_of_isTerminal terminal]
        exact .none

end SharedTask

/-! ## Entering the engine -/

namespace Execution

/-- An engine does not call an engine. -/
theorem perform_calls (x : Execution ρ) (move : Move) : (x.perform move).2.calls = [] := by
  cases move with
  | signal signal => exact Trace.calls_ofLogs _
  | finish =>
    simp only [perform, Reading.finish_trace, Trace.calls_append, Trace.calls_ofLogs]
    rfl
  | leave ending => cases ending <;> rfl
  | idle | wait | fail | close | observe | takeRound | executeAgain | log => rfl

theorem Step.calls {engine : LogEngine ε ρ} {outlet : Outlet κ} {x x' : Execution ρ}
    {shared shared' : Shared ε κ} {deed : Deed} {trace : Trace}
    (h : Step engine outlet x shared deed x' shared' trace) : trace.calls = [] := by
  cases h with
  | nothing => rfl
  | answer => exact x.reading.conclude_calls _ _
  | move => exact perform_calls _ _

end Execution

/-- The engine is called in the first step of an execution of a created task, and in
no other step. -/
theorem TaskRun.step_calls (context : TaskContext ε ρ κ) (run : TaskRun ρ) (shared : Shared ε κ) :
    (run.step context.engine context.outlet context.source context.pollInterval shared).2.2.calls =
      [] ∨
      ∃ task call, run = .starting task ∧ task.state = .created ∧
        (run.step context.engine context.outlet context.source context.pollInterval
          shared).2.2.calls =
          [call] := by
  cases run with
  | starting task =>
    cases hstate : task.state with
    | created =>
      have enters : task.entry = .enters := by rw [FetchTask.entry, hstate]; rfl
      exact .inr ⟨task, _, rfl, hstate, by simp only [step, enters]; rfl⟩
    | closed =>
      have closed : task.entry = .closedBefore := by rw [FetchTask.entry, hstate]; rfl
      exact .inl (by simp only [step, closed]; rfl)
    | running | closing | completed | failed =>
      have refused : task.entry = .refused (.alreadyExecuted task.range.id) := by
        rw [FetchTask.entry, hstate]; rfl
      exact .inl (by simp only [step, refused]; rfl)
  | executing x =>
    left
    cases hending : x.ending with
    | some ending =>
      obtain ⟨events, hlogs⟩ := leave_logs (ρ := ρ) x.reading ending
      simp only [step, hending, hlogs, Trace.calls_ofLogs]
    | none =>
      simp only [step, hending]
      exact (x.step_spec context.engine context.outlet shared).calls
  | settled task result =>
    obtain ⟨events, hlogs⟩ := task.release_logs
    simp only [step, hlogs, Trace.calls_append, Trace.calls_ofLogs]
    exact .inl rfl
  | exited task result => exact .inl rfl

namespace SharedTask

variable {contexts : Nat → TaskContext ε ρ κ} {s : SharedTask ε ρ κ}

/-- A turn calls the engine only by making a created task a running one. -/
theorem take_calls (s : SharedTask ε ρ κ) (contexts : Nat → TaskContext ε ρ κ) (turn : SharedTurn) :
    (s.take contexts turn).trace.calls = s.trace.calls ∨
      s.task.state = .created ∧ (s.take contexts turn).task.state = .running ∧
        ∃ call, (s.take contexts turn).trace.calls = s.trace.calls ++ [call] := by
  cases turn with
  | execute => exact .inl rfl
  | close => exact .inl rfl
  | step number =>
    cases hcall : s.call? number with
    | none => exact .inl (by rw [take_step_none hcall])
    | some run =>
      rcases run.step_calls (contexts number) s.shared
        with none | ⟨task, call, rfl, created, hcalls⟩
      · exact .inl (by simp only [take, hcall, Trace.calls_append, none, List.append_nil])
      · right
        obtain ⟨htask, -, -⟩ := of_call? hcall
        have enters : task.entry = .enters := by rw [FetchTask.entry, created]; rfl
        refine ⟨(congrArg FetchTask.state htask).symm.trans created, ?_, call, ?_⟩
        · simp only [take, hcall, TaskRun.step, enters]
          rfl
        · simp only [take, hcall, Trace.calls_append, hcalls]

/-- Between any two turns the engine has been called at most once, and not yet for a
created task. -/
structure Entered (s : SharedTask ε ρ κ) : Prop where
  once : s.trace.calls.length ≤ 1
  created : s.task.state = .created → s.trace.calls = []

theorem Entered.take (entered : s.Entered) (sound : s.Sound) (turn : SharedTurn) :
    (s.take contexts turn).Entered := by
  rcases s.take_calls contexts turn with same | ⟨created, running, call, hcalls⟩
  · refine ⟨same ▸ entered.once, fun created => ?_⟩
    rw [same]
    exact entered.created ((sound.change contexts turn).created_of_created created)
  · refine ⟨by rw [hcalls, entered.created created]; exact Nat.le_refl 1, fun created => ?_⟩
    cases running.symm.trans created

/-! ## The path of a task -/

/-- The states that the task goes through, each one listed once for as long as it lasts. -/
def path (contexts : Nat → TaskContext ε ρ κ) (s : SharedTask ε ρ κ) :
    List SharedTurn → List TaskState
  | [] => [s.task.state]
  | turn :: turns =>
    let next := s.take contexts turn
    if next.task.state = s.task.state then next.path contexts turns
    else s.task.state :: next.path contexts turns

theorem head?_path (contexts : Nat → TaskContext ε ρ κ) (s : SharedTask ε ρ κ)
    (turns : List SharedTurn) :
    (s.path contexts turns).head? = some s.task.state := by
  induction turns generalizing s with
  | nil => rfl
  | cons turn rest ih =>
    rw [path]
    split
    · next same => rw [ih, same]
    · rfl

theorem getLast?_path (contexts : Nat → TaskContext ε ρ κ) (s : SharedTask ε ρ κ)
    (turns : List SharedTurn) :
    (s.path contexts turns).getLast? = some (s.takeAll contexts turns).task.state := by
  induction turns generalizing s with
  | nil => rfl
  | cons turn rest ih =>
    rw [path, takeAll_cons]
    split
    · exact ih _
    · rw [List.getLast?_cons, ih]
      rfl

theorem Sound.path_isChain (h : s.Sound) (contexts : Nat → TaskContext ε ρ κ)
    (turns : List SharedTurn) :
    (s.path contexts turns).IsChain TaskState.Passes := by
  induction turns generalizing s with
  | nil => exact .singleton _
  | cons turn rest ih =>
    have chain := ih (h.take contexts turn)
    rw [path]
    split
    · exact chain
    · next changed =>
      refine chain.cons fun next first => ?_
      rw [head?_path] at first
      obtain rfl := Option.some.inj first
      exact (h.change contexts turn).eq_or_passes.resolve_left changed

/-! ## Many turns -/

theorem Sound.takeAll (h : s.Sound) (contexts : Nat → TaskContext ε ρ κ) (turns : List SharedTurn) :
    (s.takeAll contexts turns).Sound :=
  takeAll_invariant (fun _ turn sound => sound.take contexts turn) h turns

theorem takeAll_append (contexts : Nat → TaskContext ε ρ κ) (s : SharedTask ε ρ κ)
    (first second : List SharedTurn) :
    s.takeAll contexts (first ++ second) = (s.takeAll contexts first).takeAll contexts second :=
  List.foldl_append

/-- What a turn preserves of a sound task is preserved by any number of turns. -/
theorem Sound.takeAll_preserves (h : s.Sound) (invariant : SharedTask ε ρ κ → Prop)
    {contexts : Nat → TaskContext ε ρ κ}
    (preserved : ∀ s turn, s.Sound → invariant s → invariant (s.take contexts turn))
    (holds : invariant s) (turns : List SharedTurn) : invariant (s.takeAll contexts turns) := by
  induction turns generalizing s with
  | nil => exact holds
  | cons turn rest ih => exact ih (h.take contexts turn) (preserved s turn h holds)

/-- A terminal state is absorbing. -/
theorem Sound.state_of_isTerminal (h : s.Sound) (terminal : s.task.state.isTerminal = true)
    (contexts : Nat → TaskContext ε ρ κ) (turns : List SharedTurn) :
    (s.takeAll contexts turns).task.state = s.task.state := by
  refine h.takeAll_preserves (fun later => later.task.state = s.task.state) ?_ rfl turns
  intro later turn sound same
  rw [(sound.change contexts turn).eq_of_isTerminal (same ▸ terminal), same]

/-- A task that ended before its engine was called never calls it. -/
theorem Sound.calls_of_isTerminal (h : s.Sound) (terminal : s.task.state.isTerminal = true)
    (contexts : Nat → TaskContext ε ρ κ) (turns : List SharedTurn) :
    (s.takeAll contexts turns).trace.calls = s.trace.calls := by
  refine (h.takeAll_preserves (fun later =>
    later.task.state.isTerminal = true ∧ later.trace.calls = s.trace.calls) ?_
      ⟨terminal, rfl⟩ turns).2
  rintro later turn sound ⟨terminal, same⟩
  refine ⟨(sound.change contexts turn).eq_of_isTerminal terminal ▸ terminal, ?_⟩
  rcases later.take_calls contexts turn with unchanged | ⟨created, -, -⟩
  · rw [unchanged, same]
  · rw [created] at terminal
    cases terminal

/-- A task that is closing or closed was closed in one of the turns before. -/
theorem Sound.exists_closedBy (h : s.Sound) (contexts : Nat → TaskContext ε ρ κ)
    (opened : s.task.state ≠ .closing ∧ s.task.state ≠ .closed) (turns : List SharedTurn)
    (closed : (s.takeAll contexts turns).task.state = .closing ∨
      (s.takeAll contexts turns).task.state = .closed) :
    ∃ before turn after, turns = before ++ turn :: after ∧
      (s.takeAll contexts before).closedBy contexts turn = true := by
  induction turns using List.reverseRecOn with
  | nil => exact absurd closed (not_or.mpr opened)
  | append_singleton turns turn ih =>
    rw [takeAll_append] at closed
    rcases ((h.takeAll contexts turns).change contexts turn).closes_of_closed closed
      with earlier | now
    · obtain ⟨before, first, after, rfl, hfirst⟩ := ih earlier
      exact ⟨before, first, after ++ [turn], by simp, hfirst⟩
    · exact ⟨turns, turn, [], rfl, now⟩

/-- A call at work stays at work, or the task has ended. -/
theorem Sound.executing_or_terminal {number : Nat} (h : s.Sound)
    (executing : s.phase? number = some .executing) (contexts : Nat → TaskContext ε ρ κ)
    (turn : SharedTurn) :
    (s.take contexts turn).phase? number = some .executing ∨
      (s.take contexts turn).task.state.isTerminal = true := by
  cases turn with
  | close => exact .inl executing
  | execute =>
    left
    rw [phase?_execute, if_neg, executing]
    rintro rfl
    rw [phase?, List.getElem?_eq_none (Nat.le_refl _)] at executing
    cases executing
  | step other =>
    cases hcall : s.call? other with
    | none => rw [take_step_none hcall]; exact .inl executing
    | some run =>
      obtain ⟨after, step, htask, phases⟩ := take_step_spec hcall contexts
      obtain ⟨-, hphase, -⟩ := of_call? hcall
      rw [phases]
      split
      · next same =>
        subst same
        have hrun : run.phase = .executing := Option.some.inj (hphase.symm.trans executing)
        cases step with
        | work | closeWithin => exact .inl rfl
        | settle left => right; rw [htask]; exact settledState_terminal _ _ _
        | @unwind x message left =>
          have active : x.reading.asTask.state.IsActive := by
            rw [show x.reading.asTask = s.task from (of_call? hcall).1]
            exact h.active number executing
          right
          rw [htask, TaskRun.task, FetchTask.release_state_of_isActive active]
          rfl
        | enter | stayOut | release | rest => cases hrun
      · exact .inl executing

/-- Any number of calls execute one task, each with an engine and a sink of its own, and any number
of parties close it, in any order of their steps. The states that the task goes through form a path
from created, each one a successor of the one before, and none of them comes twice. On its way from
running to closed a task is closing, and it is closed only if somebody has closed it. Whoever comes
after the end finds the state as it was. The engine is called at most once, and not at all if the
task is closed before the first call enters it; and when the call that called it is no longer at
work, the state is terminal. -/
theorem lifecycle (contexts : Nat → TaskContext ε ρ κ) (range : Range) (shared : Shared ε κ)
    (turns : List SharedTurn) :
    let s : SharedTask ε ρ κ := start (.create range) shared
    let last := s.takeAll contexts turns
    let path := s.path contexts turns
    (path.head? = some .created ∧ path.getLast? = some last.task.state ∧
      path.IsChain TaskState.Passes ∧
      path.Nodup ∧ (.running ∈ path → .closed ∈ path → .closing ∈ path)) ∧
    (last.task.state = .closed →
      ∃ before turn after, turns = before ++ turn :: after ∧
        (s.takeAll contexts before).closedBy contexts turn = true) ∧
    (last.task.state.isTerminal = true →
      ∀ more, (last.takeAll contexts more).task.state = last.task.state) ∧
    last.trace.calls.length ≤ 1 ∧
    (∀ before after, turns = before ++ .close :: after →
      (s.takeAll contexts before).task.state = .created → last.trace.calls = []) ∧
    ∀ number before after, turns = before ++ after →
      (s.takeAll contexts before).phase? number = some .executing →
        last.phase? number = some .executing ∨ last.task.state.isTerminal = true := by
  intro s last path
  have sound : s.Sound := sound_start range shared
  have chain : path.IsChain TaskState.Passes := sound.path_isChain contexts turns
  have entered : ∀ turns, (s.takeAll contexts turns).Entered := fun turns =>
    sound.takeAll_preserves Entered (fun _ turn sound entered => entered.take sound turn)
      ⟨Nat.zero_le 1, fun _ => rfl⟩ turns
  refine ⟨⟨s.head?_path contexts turns, s.getLast?_path contexts turns, chain,
    TaskState.nodup_of_isChain chain, TaskState.closing_mem_of_isChain chain⟩, ?_, ?_,
    (entered turns).once, ?_, ?_⟩
  · intro closed
    exact sound.exists_closedBy contexts ⟨nofun, nofun⟩ turns (.inr closed)
  · intro terminal more
    exact (sound.takeAll contexts turns).state_of_isTerminal terminal contexts more
  · rintro before after rfl created
    have closed : ((s.takeAll contexts before).take contexts .close).task.state.isTerminal =
        true := by
      simp only [take, FetchTask.close, created]
      rfl
    have early := ((sound.takeAll contexts before).take contexts .close).calls_of_isTerminal closed
      contexts after
    rw [show last = ((s.takeAll contexts before).take contexts .close).takeAll contexts after from
      takeAll_append contexts s before (.close :: after), early]
    exact (entered before).created created
  · rintro number before after rfl executing
    rw [show last = (s.takeAll contexts before).takeAll contexts after from
      takeAll_append contexts s before after]
    refine (sound.takeAll contexts before).takeAll_preserves (fun later =>
      later.phase? number = some .executing ∨ later.task.state.isTerminal = true) ?_
        (.inl executing) after
    rintro later turn sound (executing | terminal)
    · exact sound.executing_or_terminal executing contexts turn
    · exact .inr ((sound.change contexts turn).eq_of_isTerminal terminal ▸ terminal)

/-- A task that is closed at work, and whose engine then finds the read stopped and returns. -/
example :
    let context : TaskContext Script ScriptRun PlannedSink :=
      ⟨scriptedEngine, Sink.outlet PlannedSink.sink, .named "ORCLCDB", .ofMillis 1⟩
    (start (.create Sample.split) ⟨.ofSteps [], ⟨[], [], .fresh⟩⟩ : SharedTask _ _ _).path
        (fun _ => context)
        [.execute, .execute, .step 1, .close, .step 1, .step 1, .step 1, .step 0, .step 1, .close,
          .step 1] =
      [.created, .running, .closing, .closed] := by
  decide

end SharedTask

end ChangeStream
