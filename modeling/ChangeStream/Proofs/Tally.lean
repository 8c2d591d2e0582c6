import ChangeStream.Execution
import ChangeStream.Proofs.Reading

/-!
# The tally of a bounded read

What the sink and the reporter have seen of a bounded read goes with its verdict. As long as there
is none the sink has taken no END watermark and refused nothing; a read is completed by the END
watermark that is taken, and it fails by the record that is refused.
-/

namespace ChangeStream

variable {ρ : Type}

namespace Trace

/-- The END watermarks that the sink took. -/
def endsTaken (trace : Trace) : List Record := trace.accepted.filter Record.isEnd

/-- The refusals of the sink. -/
def refusals (trace : Trace) : List DispatchError := trace.attempts.filterMap Prod.snd

/-- A trace in which nothing is handed to the sink and nothing is reported. -/
structure Quiet (trace : Trace) : Prop where
  attempts : trace.attempts = []
  accepted : trace.accepted = []
  reports : trace.reports = []

/-- What the sink and the reporter have seen of a bounded read with the given verdict. -/
def Tally (trace : Trace) : Option Verdict → Prop
  | none => trace.endsTaken = [] ∧ trace.refusals = [] ∧ trace.reports = []
  | some .completed => trace.endsTaken.length = 1 ∧ trace.refusals = [] ∧ trace.reports = []
  | some .failed => trace.endsTaken = [] ∧ trace.refusals ≠ [] ∧ trace.reports.length = 1

variable {first second trace more : Trace}

@[simp] theorem endsTaken_append :
    (first ++ second).endsTaken = first.endsTaken ++ second.endsTaken := by
  simp [endsTaken]

@[simp] theorem refusals_append :
    (first ++ second).refusals = first.refusals ++ second.refusals := by
  simp [refusals]

theorem Quiet.endsTaken (quiet : trace.Quiet) : trace.endsTaken = [] := by
  rw [Trace.endsTaken, quiet.accepted, List.filter_nil]

theorem Quiet.refusals (quiet : trace.Quiet) : trace.refusals = [] := by
  rw [Trace.refusals, quiet.attempts, List.filterMap_nil]

theorem quiet_ofLogs (events : List LogEvent) : (ofLogs events).Quiet :=
  ⟨attempts_ofLogs events, accepted_ofLogs events, reports_ofLogs events⟩

theorem Quiet.append (hfirst : first.Quiet) (hsecond : second.Quiet) : (first ++ second).Quiet where
  attempts := by rw [attempts_append, hfirst.attempts, hsecond.attempts, List.append_nil]
  accepted := by rw [accepted_append, hfirst.accepted, hsecond.accepted, List.append_nil]
  reports := by rw [reports_append, hfirst.reports, hsecond.reports, List.append_nil]

theorem Tally.append_quiet {verdict : Option Verdict} (tally : trace.Tally verdict)
    (quiet : more.Quiet) :
    (trace ++ more).Tally verdict := by
  rcases verdict with _ | _ | _ <;>
    simpa only [Tally, endsTaken_append, refusals_append, reports_append, quiet.endsTaken,
      quiet.refusals, quiet.reports, List.append_nil] using tally

end Trace

/-- Engines do not hand records to the sink themselves. -/
theorem Execution.perform_quiet (x : Execution ρ) (move : Move) : (x.perform move).2.Quiet := by
  cases move with
  | signal signal => exact Trace.quiet_ofLogs _
  | finish => exact (Trace.quiet_ofLogs _).append ⟨rfl, rfl, rfl⟩
  | leave ending => cases ending <;> exact ⟨rfl, rfl, rfl⟩
  | idle | wait | fail | close | observe | takeRound | executeAgain | log => exact ⟨rfl, rfl, rfl⟩

theorem Reading.conclude_endsTaken (reading : Reading) (record : Record) (reply : Reply) :
    (reading.conclude record reply).2.endsTaken =
      if reply.refusal.isNone && record.isEnd then [record] else [] := by
  rw [Trace.endsTaken, conclude_accepted]
  cases reply.refusal.isNone <;> cases hend : record.isEnd <;> simp [hend]

theorem Reading.conclude_refusals (reading : Reading) (record : Record) (reply : Reply) :
    (reading.conclude record reply).2.refusals = reply.refusal.toList := by
  rw [Trace.refusals, conclude_attempts]
  cases reply.refusal <;> rfl

/-- The answer of the sink to a record of a bounded read gives the verdict that fits the tally. -/
theorem Trace.Tally.answer {trace : Trace} (tally : trace.Tally none) {reading : Reading}
    {record : Record} (kind : reading.run.kind = .completionDriven)
    (offers : reading.range.Offers record) (reply : Reply) :
    (trace ++ (reading.conclude record reply).2).Tally
      (reading.run.kind.answerVerdict record reply.refusal) := by
  obtain ⟨hends, hrefusals, hreports⟩ := tally
  have hends' := reading.conclude_endsTaken record reply
  have hrefusals' := reading.conclude_refusals record reply
  have hreports' := reading.conclude_reports record reply
  rw [kind]
  cases hrefusal : reply.refusal with
  | some error =>
    rw [hrefusal] at hends' hrefusals' hreports'
    simp [RunKind.answerVerdict, Tally, hends, hrefusals, hreports, hends', hrefusals', hreports']
  | none =>
    rw [hrefusal] at hends' hrefusals' hreports'
    cases record with
    | change split event =>
      simp [RunKind.answerVerdict, Tally, hends, hrefusals, hreports, hends', hrefusals', hreports',
        Record.isEnd]
    | watermark event =>
      simp [RunKind.answerVerdict, RunKind.finishVerdict, Tally, hends, hrefusals, hreports, hends',
        hrefusals', hreports', Record.isEnd, offers.2.1]

end ChangeStream
