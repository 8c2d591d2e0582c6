import ChangeStream.Proofs.Context
import Mathlib.Data.List.ReduceOption

/-!
# The verdict latch of a run context

Any number of callers tell a context to finish or to fail, let it idle, and write its flag. Of those
it takes a verdict from, the first alone is told that it counted, and its verdict is why the context
has stopped ever after. The verdict pays no heed to the flag, nor does the flag to the verdict, so
that it makes no difference to either when the other was written.
-/

namespace ChangeStream.RunContext

/-- Something that is done to a context. -/
inductive Call
  | finish
  | fail
  | idle
  /-- The owner sets or clears the flag. -/
  | setRunning (running : Bool)
deriving DecidableEq

namespace Call

/-- Whether the call is to finish or to fail. -/
def isVerdict : Call → Bool
  | finish | fail => true
  | idle | setRunning _ => false

/-- The verdict that a context of a kind takes from the call. -/
def verdict? (kind : RunKind) : Call → Option Verdict
  | finish => kind.finishVerdict
  | fail => some .failed
  | idle | setRunning _ => none

/-- What the call writes to the flag. -/
def flag? : Call → Option Bool
  | setRunning running => some running
  | finish | fail | idle => none

theorem verdict?_of_not_isVerdict {call : Call} (other : call.isVerdict = false) (kind : RunKind) :
    call.verdict? kind = none := by
  cases call with
  | finish | fail => cases other
  | idle | setRunning running => rfl

end Call

/-- What the caller is told, which is whether a call to finish or to fail stopped the context, and
the context after the call. -/
def perform (run : RunContext) : Call → Option Bool × RunContext
  | .finish => (some run.finish.1, run.finish.2)
  | .fail => (some run.fail.1, run.fail.2)
  | .idle => (none, run)
  | .setRunning running => (none, run.withFlag running)

/-- What the callers are told in turn. -/
def answers (run : RunContext) : List Call → List (Option Bool)
  | [] => []
  | call :: calls => (run.perform call).1 :: (run.perform call).2.answers calls

/-- The context after a sequence of calls. -/
def after (run : RunContext) : List Call → RunContext
  | [] => run
  | call :: calls => (run.perform call).2.after calls

/-! ## One call -/

theorem perform_answer (run : RunContext) (call : Call) :
    (run.perform call).1 =
      if call.isVerdict then some (run.verdict.isNone && (call.verdict? run.kind).isSome)
        else none := by
  obtain ⟨kind, flag, given, interval⟩ := run
  cases call with
  | finish => cases kind <;> cases given <;> rfl
  | fail => cases given <;> rfl
  | idle | setRunning running => rfl

theorem perform_context (run : RunContext) (call : Call) :
    (run.perform call).2 =
      { run with
        running := call.flag?.getD run.running
        verdict := run.verdict.or (call.verdict? run.kind) } := by
  cases call with
  | finish => exact run.finish_eq
  | fail => exact run.fail_eq
  | idle | setRunning running => simp [perform, withFlag, Call.flag?, Call.verdict?]

/-- A call counts if it is the first to give a verdict. -/
theorem perform_counts_iff (run : RunContext) (call : Call) :
    (run.perform call).1 = some true ↔
    run.verdict = none ∧ (call.verdict? run.kind).isSome = true := by
  rw [perform_answer]
  cases call <;> simp [Call.isVerdict, Call.verdict?]

/-! ## Sequences of calls -/

/-- The flag is as it was written last, and the verdict is the first that was given. -/
theorem after_eq (run : RunContext) (calls : List Call) :
    run.after calls =
      { run with
        running := (calls.filterMap Call.flag?).getLastD run.running
        verdict := run.verdict.or (calls.findSome? (Call.verdict? run.kind)) } := by
  induction calls generalizing run with
  | nil => simp [after]
  | cons call calls ih =>
    have flags : ((call :: calls).filterMap Call.flag?).getLastD run.running =
        (calls.filterMap Call.flag?).getLastD (call.flag?.getD run.running) := by
      rw [List.filterMap_cons]
      cases call.flag? with
      | none => rfl
      | some flag => exact List.getLastD_cons
    have verdicts : (call :: calls).findSome? (Call.verdict? run.kind) =
        (call.verdict? run.kind).or (calls.findSome? (Call.verdict? run.kind)) := by
      rw [List.findSome?_cons]
      cases call.verdict? run.kind <;> rfl
    rw [after, ih, perform_context, flags, verdicts, Option.or_assoc]

/-- No call counts once there is a verdict. -/
theorem not_mem_answers_of_verdict {run : RunContext} {verdict : Verdict}
    (given : run.verdict = some verdict) (calls : List Call) : some true ∉ run.answers calls := by
  induction calls generalizing run with
  | nil => simp [answers]
  | cons call calls ih =>
    have kept : (run.perform call).2.verdict = some verdict := by
      rw [perform_context, given, Option.some_or]
    have late : (run.perform call).1 ≠ some true := by simp [perform_counts_iff, given]
    simp [answers, late.symm, ih kept]

/-- Only the first call that gives a verdict counts. -/
theorem answers_of_undecided {run : RunContext} (undecided : run.verdict = none)
    (calls : List Call) :
    (run.answers calls).count (some true) ≤ 1 ∧
      (run.answers calls).findIdx? (· == some true) = calls.findIdx? fun call =>
        (call.verdict? run.kind).isSome := by
  induction calls generalizing run with
  | nil => simp [answers]
  | cons call calls ih =>
    have counts := run.perform_counts_iff call
    have context := run.perform_context call
    have kind : (run.perform call).2.kind = run.kind := by rw [context]
    rw [answers, List.findIdx?_cons, List.findIdx?_cons]
    cases given : call.verdict? run.kind with
    | some verdict =>
      have first : (run.perform call).1 = some true := counts.mpr ⟨undecided, by simp [given]⟩
      have decided : (run.perform call).2.verdict = some verdict := by
        rw [context, undecided, given]; rfl
      have later := List.count_eq_zero.mpr (not_mem_answers_of_verdict decided calls)
      simp [first, later]
    | none =>
      have passed : (run.perform call).1 ≠ some true := by simp [counts, given]
      have still : (run.perform call).2.verdict = none := by rw [context, undecided, given]; rfl
      have rest := ih still
      rw [kind] at rest
      simp [passed, rest]

/-- What callers are told does not depend on the flag. -/
theorem answers_congr {run other : RunContext} (kind : run.kind = other.kind)
    (verdict : run.verdict = other.verdict) (calls : List Call) :
    run.answers calls = other.answers calls := by
  induction calls generalizing run other with
  | nil => rfl
  | cons call calls ih =>
    rw [answers, answers, perform_answer, perform_answer, kind, verdict, ih]
    · rw [perform_context, perform_context, kind]
    · rw [perform_context, perform_context, kind, verdict]

/-- What the callers to finish and to fail are told is settled among themselves. -/
theorem reduceOption_answers (run : RunContext) (calls : List Call) :
    (run.answers calls).reduceOption =
      (run.answers (calls.filter Call.isVerdict)).reduceOption := by
  induction calls generalizing run with
  | nil => rfl
  | cons call calls ih =>
    have context := run.perform_context call
    cases asked : call.isVerdict with
    | true =>
      have told := run.perform_answer call
      rw [asked, if_pos rfl] at told
      rw [List.filter_cons_of_pos asked, answers, answers, told, List.reduceOption_cons_of_some,
        List.reduceOption_cons_of_some, ih]
    | false =>
      have told : (run.perform call).1 = none := by simp [perform_answer, asked]
      have nothing : call.verdict? run.kind = none := Call.verdict?_of_not_isVerdict asked run.kind
      rw [nothing, Option.or_none] at context
      rw [List.filter_cons_of_neg (by simp [asked]), answers, told,
        List.reduceOption_cons_of_none, ih]
      exact congrArg List.reduceOption (answers_congr (by rw [context]) (by rw [context]) _)

theorem findSome?_verdict? (kind : RunKind) (calls : List Call) :
    calls.findSome? (Call.verdict? kind) =
      (calls.filter Call.isVerdict).findSome? (Call.verdict? kind) := by
  induction calls with
  | nil => rfl
  | cons call calls ih =>
    cases asked : call.isVerdict with
    | true => rw [List.filter_cons_of_pos asked, List.findSome?_cons, List.findSome?_cons, ih]
    | false =>
      rw [List.filter_cons_of_neg (by simp [asked]), List.findSome?_cons,
        Call.verdict?_of_not_isVerdict asked, ih]

/-- Of all calls on a fresh context at most one to finish or to fail is told that it stopped the
context, namely the first that the context takes a verdict from. From then on its verdict is why the
context has stopped, and nobody idles any more; until then the flag alone decides. Where the flag is
written between the verdicts makes no difference to what the callers are told about them, nor to the
context in the end. -/
theorem first_verdict_latched (kind : RunKind) (flag : Bool) (interval : Duration)
    (calls : List Call) :
    let start := fresh kind flag interval
    let now := start.after calls
    (start.answers calls).count (some true) ≤ 1 ∧
      (start.answers calls).findIdx? (· == some true) =
        calls.findIdx? (fun call => (call.verdict? kind).isSome) ∧
      (∀ verdict, calls.findSome? (Call.verdict? kind) = some verdict →
        now.stopReason = some verdict.reason ∧ now.isRunning = false ∧ now.idleTime = .zero) ∧
      now.running = (calls.filterMap Call.flag?).getLastD flag ∧
      (calls.findSome? (Call.verdict? kind) = none →
        now.stopReason = if now.running then none else some .closed) ∧
      ∀ others, others.filterMap Call.flag? = calls.filterMap Call.flag? →
        others.filter Call.isVerdict = calls.filter Call.isVerdict →
        (start.answers others).reduceOption = (start.answers calls).reduceOption ∧
          start.after others = now := by
  intro start now
  have context : now = _ := start.after_eq calls
  have latched : now.verdict = calls.findSome? (Call.verdict? kind) := by
    rw [context]
    exact Option.none_or
  obtain ⟨once, first⟩ := answers_of_undecided (show start.verdict = none from rfl) calls
  refine ⟨once, first, ?given, ?flag, ?undecided, ?order⟩
  case given =>
    intro verdict given
    have reason := now.stopReason_of_verdict (latched.trans given)
    have stopped : now.isRunning = false := by rw [isRunning, reason]; rfl
    exact ⟨reason, stopped, by rw [idleTime, stopped]; rfl⟩
  case flag => exact congrArg RunContext.running context
  case undecided =>
    intro nothing
    rw [stopReason, latched, nothing]
  case order =>
    intro others flags verdicts
    constructor
    · rw [reduceOption_answers, verdicts, ← reduceOption_answers]
    · rw [context, start.after_eq others, flags, findSome?_verdict?, verdicts, ← findSome?_verdict?]

end ChangeStream.RunContext
