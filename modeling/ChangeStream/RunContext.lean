import ChangeStream.Duration
import ChangeStream.Log

/-!
# Run contexts

A run context tells an engine whether to read on. It follows the running flag of its owner, and
besides it has a verdict of its own, given once: that the read is completed or that it has failed. A
context that follows its owner alone takes no verdict of completion. The verdict comes before the
flag when the reason for having stopped is asked.
-/

namespace ChangeStream

/-- What may stop a read. -/
inductive RunKind
  /-- Only its owner, or a failure. -/
  | outerDriven
  /-- Also its being completed. -/
  | completionDriven
deriving DecidableEq

/-- The name of a kind. -/
def RunKind.name : RunKind → String
  | outerDriven => "OuterDriven"
  | completionDriven => "CompletionDriven"

/-- How a read ended by itself. -/
inductive Verdict
  | completed
  | failed
deriving DecidableEq

/-- The reason that a verdict is. -/
def Verdict.reason : Verdict → StopReason
  | completed => .completed
  | failed => .failed

/-- What an engine is told about going on. -/
structure RunContext where
  kind : RunKind
  /-- The flag of the owner. -/
  running : Bool
  verdict : Option Verdict
  pollInterval : Duration
deriving DecidableEq

namespace RunContext

/-- A context without a verdict. -/
def fresh (kind : RunKind) (running : Bool) (pollInterval : Duration) : RunContext :=
  { kind, running, verdict := none, pollInterval }

/-- Why the context has stopped, if it has. -/
def stopReason (run : RunContext) : Option StopReason :=
  match run.verdict with
  | some verdict => some verdict.reason
  | none => if run.running then none else some .closed

/-- Whether the read is to go on. -/
def isRunning (run : RunContext) : Bool := run.stopReason.isNone

/-- Gives a verdict unless there is one; whether this one counts. -/
def judge (run : RunContext) (verdict : Verdict) : Bool × RunContext :=
  match run.verdict with
  | some _ => (false, run)
  | none => (true, { run with verdict := some verdict })

/-- Marks the read as completed; whether this stopped the context. -/
def finish (run : RunContext) : Bool × RunContext :=
  match run.kind with
  | .outerDriven => (false, run)
  | .completionDriven => run.judge .completed

/-- What finishing tells the log. -/
def finishLog (run : RunContext) : List LogEvent :=
  match run.kind with
  | .outerDriven => [.finishIgnored]
  | .completionDriven => []

/-- Marks the read as failed; whether this stopped the context. -/
def fail (run : RunContext) : Bool × RunContext := run.judge .failed

/-- How long an engine with nothing to read idles before it looks again: one interval, or no time
once the context has stopped. -/
def idleTime (run : RunContext) : Duration :=
  if run.isRunning then run.pollInterval else .zero

/-- The context after its owner has set or cleared the flag. -/
def withFlag (run : RunContext) (running : Bool) : RunContext := { run with running }

end RunContext

end ChangeStream
