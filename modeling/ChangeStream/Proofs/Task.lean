import ChangeStream.Task
import ChangeStream.Proofs.Reading

/-!
# Closing, settling and releasing a task

A terminal state stays as it is, whoever closes or releases the task. Settling always comes to a
terminal state, and releasing never leaves a task running. The log is the only one to be told.
-/

namespace ChangeStream

variable {ρ : Type}

theorem TaskState.afterClose_of_isTerminal {state : TaskState}
    (terminal : state.isTerminal = true) :
    state.afterClose = state := by
  cases state <;> first | rfl | cases terminal

theorem TaskState.afterClose_afterClose (state : TaskState) :
    state.afterClose.afterClose = state.afterClose := by
  cases state <;> rfl

theorem settledState_terminal (ending : Ending) (reason : Option StopReason) (state : TaskState) :
    (settledState ending reason state).isTerminal = true := by
  unfold settledState
  split <;> try rfl
  split <;> rfl

namespace FetchTask

variable (task : FetchTask)

theorem release_running : task.release.1.running = false := by
  unfold release
  split <;> rfl

theorem release_not_running : task.release.1.state ≠ .running := by
  unfold release
  split
  · nofun
  · nofun
  all_goals simp [*]

theorem release_range : task.release.1.range = task.range := by
  unfold release
  split <;> rfl

theorem close_state_of_isTerminal {task : FetchTask} (terminal : task.state.isTerminal = true) :
    task.close.state = task.state :=
  TaskState.afterClose_of_isTerminal terminal

/-- A close of a task that has ended changes nothing. -/
theorem close_of_isTerminal {task : FetchTask} (terminal : task.state.isTerminal = true)
    (cleared : task.running = false) : task.close = task := by
  rw [close, TaskState.afterClose_of_isTerminal terminal, ← cleared]

theorem release_state_of_isTerminal {task : FetchTask} (terminal : task.state.isTerminal = true) :
    task.release.1.state = task.state := by
  unfold release
  split
  · next running => rw [running] at terminal; cases terminal
  · next closing => rw [closing] at terminal; cases terminal
  all_goals rfl

theorem release_logs : ∃ events, task.release.2 = .ofLogs events := by
  unfold release
  split
  · exact ⟨[_], rfl⟩
  · exact ⟨[_], rfl⟩
  all_goals exact ⟨[], rfl⟩

end FetchTask

theorem TaskRun.leave_logs (reading : Reading) (ending : Ending) :
    ∃ events, (leave (ρ := ρ) reading ending).2 = .ofLogs events := by
  cases ending with
  | panicked message => exact reading.asTask.release_logs
  | failed error => exact ⟨[], rfl⟩
  | returned =>
    simp only [leave, Reading.settle]
    split
    · exact ⟨[_], rfl⟩
    · exact ⟨[], rfl⟩

end ChangeStream
