import ChangeStream.RunContext

/-!
# Verdicts of run contexts

A context runs as long as it has no verdict and its flag is set. Being told to finish or to fail
gives a verdict where there is none and changes nothing else; the flag never touches the verdict.
-/

namespace ChangeStream

/-- The verdict that a context takes when it is told to finish. -/
def RunKind.finishVerdict : RunKind → Option Verdict
  | outerDriven => none
  | completionDriven => some .completed

namespace RunContext

variable (run : RunContext)

theorem isRunning_iff : run.isRunning = true ↔ run.verdict = none ∧ run.running = true := by
  cases hverdict : run.verdict <;> cases hflag : run.running <;>
    simp [isRunning, stopReason, hverdict, hflag]

theorem stopReason_eq_none_iff :
    run.stopReason = none ↔ run.verdict = none ∧ run.running = true := by
  rw [← isRunning_iff, isRunning, Option.isNone_iff_eq_none]

/-- The verdict comes before the flag. -/
theorem stopReason_eq_closed_iff :
    run.stopReason = some .closed ↔ run.verdict = none ∧ run.running = false := by
  cases hverdict : run.verdict with
  | none => cases hflag : run.running <;> simp [stopReason, hverdict, hflag]
  | some verdict => cases verdict <;> simp [stopReason, hverdict, Verdict.reason]

theorem stopReason_eq_failed_iff : run.stopReason = some .failed ↔ run.verdict = some .failed := by
  cases hverdict : run.verdict with
  | none => cases hflag : run.running <;> simp [stopReason, hverdict, hflag]
  | some verdict => cases verdict <;> simp [stopReason, hverdict, Verdict.reason]

theorem stopReason_of_verdict {verdict : Verdict} (given : run.verdict = some verdict) :
    run.stopReason = some verdict.reason := by
  simp [stopReason, given]

@[simp] theorem withFlag_running (flag : Bool) : (run.withFlag flag).running = flag := rfl

/-- Only a context without a verdict takes one. -/
theorem judge_eq (verdict : Verdict) :
    (run.judge verdict).2 = { run with verdict := run.verdict.or (some verdict) } := by
  obtain ⟨kind, flag, given, interval⟩ := run
  cases given <;> rfl

theorem fail_eq : run.fail.2 = { run with verdict := run.verdict.or (some .failed) } :=
  run.judge_eq .failed

theorem finish_eq :
    run.finish.2 = { run with verdict := run.verdict.or run.kind.finishVerdict } := by
  obtain ⟨kind, flag, given, interval⟩ := run
  cases kind <;> cases given <;> rfl

end RunContext

end ChangeStream
