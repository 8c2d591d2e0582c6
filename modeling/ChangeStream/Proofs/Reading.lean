import ChangeStream.Reading
import ChangeStream.Proofs.Context

/-!
# What the parts of a read change

A read hands over a change of its split, or the END watermark of a bounded range at a position that
has reached its end, and does so only while its context runs. The answer of the sink may give the
context a verdict. Nothing but a verdict and a close changes a read.
-/

namespace ChangeStream

/-! ## Views of traces -/

namespace Trace

variable (first second : Trace)

@[simp] theorem attempts_append : (first ++ second).attempts = first.attempts ++ second.attempts :=
  List.filterMap_append

@[simp] theorem accepted_append : (first ++ second).accepted = first.accepted ++ second.accepted :=
  List.filterMap_append

@[simp] theorem reports_append : (first ++ second).reports = first.reports ++ second.reports :=
  List.filterMap_append

@[simp] theorem calls_append : (first ++ second).calls = first.calls ++ second.calls :=
  List.filterMap_append

@[simp] theorem attempts_ofLogs (events : List LogEvent) : (ofLogs events).attempts = [] := by
  rw [ofLogs, attempts, List.filterMap_map]
  exact List.filterMap_eq_nil_iff.mpr fun _ _ => rfl

@[simp] theorem accepted_ofLogs (events : List LogEvent) : (ofLogs events).accepted = [] := by
  rw [ofLogs, accepted, List.filterMap_map]
  exact List.filterMap_eq_nil_iff.mpr fun _ _ => rfl

@[simp] theorem reports_ofLogs (events : List LogEvent) : (ofLogs events).reports = [] := by
  rw [ofLogs, reports, List.filterMap_map]
  exact List.filterMap_eq_nil_iff.mpr fun _ _ => rfl

@[simp] theorem calls_ofLogs (events : List LogEvent) : (ofLogs events).calls = [] := by
  rw [ofLogs, calls, List.filterMap_map]
  exact List.filterMap_eq_nil_iff.mpr fun _ _ => rfl

end Trace

/-! ## What a read hands over -/

/-- Whether a record is an END watermark. -/
def Record.isEnd : Record → Bool
  | change .. => false
  | watermark event => event.kind = .ending

/-- The records that a read of a range may hand to the sink. -/
def Range.Offers (range : Range) : Record → Prop
  | .change split _ => split = range.id
  | .watermark event =>
    event.split = range.id ∧ event.kind = .ending ∧
      ∃ stop, range.stop = .bounded stop ∧ event.position.hasReached stop = true

/-- The verdict that the answer of the sink gives to a context that has none. -/
def RunKind.answerVerdict (kind : RunKind) : Record → Option DispatchError → Option Verdict
  | _, some _ => some .failed
  | .change .., none => none
  | .watermark _, none => kind.finishVerdict

namespace Reading

variable (reading : Reading)

theorem offer?_change (event : Change) :
    (reading.offer? (.change event)).1 =
      if reading.run.isRunning then some (.change reading.range.id event) else none := by
  simp only [offer?]
  split <;> rfl

theorem offer?_advance {stop : Position} (bounded : reading.range.stop = .bounded stop)
    (position : Position) :
    (reading.offer? (.advance position)).1 =
      if reading.run.isRunning && position.hasReached stop then
        some (.watermark ⟨reading.range.id, position, .ending⟩)
      else none := by
  simp only [offer?, bounded, RangeEnd.position?]
  split <;> rfl

theorem offer?_advance_unbounded (unbounded : reading.range.stop = .noStopping)
    (position : Position) :
    (reading.offer? (.advance position)).1 = none := by
  simp [offer?, unbounded, RangeEnd.position?]

/-- The END watermark is handed over if the read runs and has an end that the
position has reached. -/
theorem isSome_offer?_advance (position : Position) :
    (reading.offer? (.advance position)).1.isSome =
      (reading.run.isRunning && reading.range.stop.position?.any position.hasReached) := by
  cases hstop : reading.range.stop with
  | noStopping => simp [reading.offer?_advance_unbounded hstop, RangeEnd.position?]
  | bounded stop =>
    rw [offer?_advance reading hstop, RangeEnd.position?, Option.any_some]
    split
    · next both => exact both.symm
    · next either => exact (Bool.eq_false_iff.mpr either).symm

/-- A read hands over what its range offers, and only while its context runs. -/
theorem offers_of_offer? {signal : Signal} {record : Record}
    (offered : (reading.offer? signal).1 = some record) :
    reading.range.Offers record ∧ reading.run.isRunning = true := by
  cases signal with
  | change event =>
    rw [offer?_change] at offered
    split at offered
    · next running =>
      obtain rfl := Option.some.inj offered
      exact ⟨rfl, running⟩
    · cases offered
  | advance position =>
    cases hstop : reading.range.stop with
    | noStopping =>
      rw [offer?_advance_unbounded reading hstop] at offered
      cases offered
    | bounded stop =>
      rw [offer?_advance reading hstop] at offered
      split at offered
      · next both =>
        obtain rfl := Option.some.inj offered
        rw [Bool.and_eq_true] at both
        exact ⟨⟨rfl, rfl, stop, hstop, both.2⟩, both.1⟩
      · cases offered

/-- A read that has stopped hands nothing over. -/
theorem offer?_of_verdict {verdict : Verdict} (given : reading.run.verdict = some verdict)
    (signal : Signal) : (reading.offer? signal).1 = none := by
  cases hoffer : (reading.offer? signal).1 with
  | none => rfl
  | some record =>
    have running := (reading.offers_of_offer? hoffer).2
    rw [RunContext.isRunning_iff, given] at running
    cases running.1

/-! ## What becomes of a read -/

theorem finish_eq :
    reading.finish.2.1 =
      { reading with
        run := { reading.run with
          verdict := reading.run.verdict.or reading.run.kind.finishVerdict } } := by
  simp only [finish, RunContext.finish_eq]

@[simp] theorem finish_trace : reading.finish.2.2 = .ofLogs reading.run.finishLog := rfl

theorem fail_eq :
    reading.fail.2 =
      { reading with
        run := { reading.run with verdict := reading.run.verdict.or (some .failed) } } := by
  simp only [fail, RunContext.fail_eq]

/-- An answer may close the read, and it may give a verdict. -/
theorem conclude_eq (record : Record) (reply : Reply) :
    (reading.conclude record reply).1 =
      { range := reading.range
        run := { reading.run with
          running := reading.run.running && !reply.closes
          verdict := reading.run.verdict.or (reading.run.kind.answerVerdict record reply.refusal) }
        task := if reply.closes then reading.task.map TaskState.afterClose else reading.task } := by
  obtain ⟨closes, refusal⟩ := reply
  cases closes <;> cases refusal <;> cases record <;>
    simp [conclude, finish_eq, fail_eq, close, RunContext.withFlag, RunKind.answerVerdict]

@[simp] theorem conclude_attempts (record : Record) (reply : Reply) :
    (reading.conclude record reply).2.attempts = [(record, reply.refusal)] := by
  obtain ⟨closes, refusal⟩ := reply
  cases refusal with
  | some error => rfl
  | none =>
    cases record with
    | change split event => rfl
    | watermark event => exact congrArg _ (Trace.attempts_ofLogs _)

@[simp] theorem conclude_accepted (record : Record) (reply : Reply) :
    (reading.conclude record reply).2.accepted = if reply.refusal.isNone then [record] else [] := by
  obtain ⟨closes, refusal⟩ := reply
  cases refusal with
  | some error => rfl
  | none =>
    cases record with
    | change split event => rfl
    | watermark event => exact congrArg _ (Trace.accepted_ofLogs _)

/-- A refusal is reported, and nothing else is. -/
@[simp] theorem conclude_reports (record : Record) (reply : Reply) :
    (reading.conclude record reply).2.reports =
      reply.refusal.toList.map (FetchError.dispatch reading.range.id (eventKind record)) := by
  obtain ⟨closes, refusal⟩ := reply
  cases refusal with
  | some error => cases closes <;> rfl
  | none =>
    cases record with
    | change split event => rfl
    | watermark event => exact Trace.reports_ofLogs _

/-- No engine is called while the sink answers. -/
@[simp] theorem conclude_calls (record : Record) (reply : Reply) :
    (reading.conclude record reply).2.calls = [] := by
  obtain ⟨closes, refusal⟩ := reply
  cases refusal with
  | some error => rfl
  | none =>
    cases record with
    | change split event => rfl
    | watermark event => exact Trace.calls_ofLogs _

end Reading

end ChangeStream
