import ChangeStream.Task
import ChangeStream.Proofs.Execution

/-!
# The verdict that a trace shows

The first occurrence in the trace of a read that completes or fails it is the verdict of its
context: a later one comes to a context that has its verdict. As long as the engine is at work, the
read shows this verdict, and its flag and the state of its task say whether the task was closed.
-/

namespace ChangeStream

variable {ε ρ κ : Type}

/-! ## The first verdict in a trace -/

/-- The verdict that an occurrence gives to a context that has none. A range without an end is never
completed. -/
def Occurrence.verdict? (bounded : Bool) : Occurrence → Option Verdict
  | .dispatched _ (some _) => some .failed
  | .dispatched record none => if bounded && record.isEnd then some .completed else none
  | .finishCalled _ => if bounded then some .completed else none
  | .failCalled _ => some .failed
  | .logged _ | .reported _ | .entered .. | .observed _ | .roundTaken .. | .executedAgain _ => none

namespace Trace

/-- The first verdict in a trace. -/
def verdict? (bounded : Bool) (trace : Trace) : Option Verdict :=
  trace.findSome? (Occurrence.verdict? bounded)

@[simp] theorem verdict?_append (bounded : Bool) (first second : Trace) :
    (first ++ second).verdict? bounded = (first.verdict? bounded).or (second.verdict? bounded) :=
  List.findSome?_append

@[simp] theorem verdict?_ofLogs (bounded : Bool) (events : List LogEvent) :
    (ofLogs events).verdict? bounded = none := by
  simp [verdict?, ofLogs, Occurrence.verdict?]

end Trace

/-- The kind of context that a range is read with. -/
def Range.contextKind (range : Range) : RunKind :=
  if range.isBounded then .completionDriven else .outerDriven

theorem Range.finishVerdict_contextKind (range : Range) :
    range.contextKind.finishVerdict = if range.isBounded then some .completed else none := by
  unfold contextKind
  split <;> rfl

/-! ## The invariant -/

/-- What the read of an execution shows of the trace, and of whether the task was closed. -/
structure Execution.Reflects (x : Execution ρ) (range : Range) (trace : Trace)
    (closed : Bool) : Prop where
  range_eq : x.reading.range = range
  kind : x.reading.run.kind = range.contextKind
  verdict : x.reading.run.verdict = trace.verdict? range.isBounded
  flag : x.reading.run.running = !closed
  state : x.reading.task = some (if closed then .closing else .running)
  offers : ∀ record, x.offered = some record → range.Offers record

theorem Reading.conclude_verdict? {reading : Reading} {record : Record} (reply : Reply)
    (kind : reading.run.kind = reading.range.contextKind) (offers : reading.range.Offers record) :
    (reading.conclude record reply).2.verdict? reading.range.isBounded =
      reading.run.kind.answerVerdict record reply.refusal := by
  obtain ⟨closes, refusal⟩ := reply
  cases refusal with
  | some error => rfl
  | none =>
    cases record with
    | change split event =>
      simp [conclude, Trace.verdict?, Occurrence.verdict?, Record.isEnd, RunKind.answerVerdict]
    | watermark event =>
      -- The log entries around the verdict say nothing of it.
      have hend : Record.isEnd (.watermark event) = true := by simp [Record.isEnd, offers.2.1]
      rw [RunKind.answerVerdict, kind, Range.finishVerdict_contextKind]
      simp only [conclude, finish_trace]
      rw [← List.singleton_append, Trace.verdict?_append, Trace.verdict?_ofLogs, Option.or_none]
      simp [Trace.verdict?, Occurrence.verdict?, hend]

namespace Execution.Reflects

variable {x : Execution ρ} {range : Range} {trace : Trace} {closed : Bool}

theorem close (h : x.Reflects range trace closed) :
    { x with reading := x.reading.close }.Reflects range trace true where
  range_eq := h.range_eq
  kind := h.kind
  verdict := h.verdict
  flag := rfl
  state := by
    simp only [Reading.close, h.state]
    cases closed <;> rfl
  offers := h.offers

theorem answer (h : x.Reflects range trace closed) {record : Record}
    (offered : x.offered = some record) (reply : Reply) :
    (x.answer record reply).1.Reflects range (trace ++ (x.answer record reply).2)
      (closed || reply.closes) := by
  have offers := h.offers record offered
  have hverdict :=
    Reading.conclude_verdict? reply (h.kind.trans (h.range_eq ▸ rfl)) (h.range_eq ▸ offers)
  rw [h.range_eq] at hverdict
  constructor
  · simp only [Execution.answer, Reading.conclude_eq, h.range_eq]
  · simp only [Execution.answer, Reading.conclude_eq, h.kind]
  · rw [Trace.verdict?_append]
    simp only [Execution.answer, hverdict]
    rw [Reading.conclude_eq, ← h.verdict]
  · simp only [Execution.answer, Reading.conclude_eq, h.flag, Bool.not_or]
  · simp only [Execution.answer, Reading.conclude_eq, h.state]
    cases closed <;> cases reply.closes <;> rfl
  · intro record hrecord
    cases hrecord

/-- A move that gives the verdict which it shows, and changes nothing else of the read. -/
theorem of_verdict (h : x.Reflects range trace closed) {x' : Execution ρ} {more : Trace}
    (reading : x'.reading = { x.reading with
      run := { x.reading.run with
        verdict := x.reading.run.verdict.or (more.verdict? range.isBounded) } })
    (offers : ∀ record, x'.offered = some record → range.Offers record) :
    x'.Reflects range (trace ++ more) closed := by
  constructor
  · rw [reading, h.range_eq]
  · rw [reading, h.kind]
  · rw [reading, Trace.verdict?_append, ← h.verdict]
  · rw [reading, h.flag]
  · rw [reading, h.state]
  · exact offers

/-- A move that leaves the read alone and shows no verdict. -/
theorem of_same_reading (h : x.Reflects range trace closed) {x' : Execution ρ} {more : Trace}
    (reading : x'.reading = x.reading) (silent : more.verdict? range.isBounded = none)
    (offers : ∀ record, x'.offered = some record → range.Offers record) :
    x'.Reflects range (trace ++ more) closed :=
  h.of_verdict (by rw [reading, silent, Option.or_none]) offers

theorem perform (h : x.Reflects range trace closed) (move : Move) :
    (x.perform move).1.Reflects range (trace ++ (x.perform move).2)
      (closed || (Deed.move move).closes) := by
  cases move with
  | close =>
    rw [Deed.closes, Bool.or_true, Execution.perform, List.append_nil]
    exact h.close
  | finish =>
    rw [show (closed || (Deed.move .finish).closes) = closed from Bool.or_false closed]
    refine h.of_verdict ?_ h.offers
    simp only [Execution.perform, Reading.finish_eq, Reading.finish_trace, h.kind,
      Range.finishVerdict_contextKind, Trace.verdict?_append, Trace.verdict?_ofLogs, Option.none_or]
    cases range.isBounded <;> rfl
  | fail =>
    rw [show (closed || (Deed.move .fail).closes) = closed from Bool.or_false closed]
    exact h.of_verdict (by simp only [Execution.perform, Reading.fail_eq]; rfl) h.offers
  | signal signal =>
    rw [show (closed || (Deed.move (.signal signal)).closes) = closed from Bool.or_false closed]
    refine h.of_same_reading rfl (Trace.verdict?_ofLogs _ _) ?_
    intro record offered
    exact h.range_eq ▸ (x.reading.offers_of_offer? offered).1
  | leave ending =>
    rw [show (closed || (Deed.move (.leave ending)).closes) = closed from Bool.or_false closed]
    exact h.of_same_reading rfl (by cases ending <;> rfl) h.offers
  | idle | wait | observe | takeRound | executeAgain | log =>
    simp only [Deed.closes, Bool.or_false]
    exact h.of_same_reading rfl rfl h.offers

theorem withProgress (h : x.Reflects range trace closed) (progress : ρ) :
    { x with progress }.Reflects range trace closed :=
  ⟨h.range_eq, h.kind, h.verdict, h.flag, h.state, h.offers⟩

theorem step (h : x.Reflects range trace closed) {engine : LogEngine ε ρ} {outlet : Outlet κ}
    {shared shared' : Shared ε κ} {deed : Deed} {x' : Execution ρ} {more : Trace}
    (step : Execution.Step engine outlet x shared deed x' shared' more) :
    x'.Reflects range (trace ++ more) (closed || deed.closes) := by
  cases step with
  | nothing =>
    change x.Reflects range (trace ++ []) (closed || false)
    rwa [List.append_nil, Bool.or_false]
  | answer offered answered => exact h.answer offered _
  | move offered next => exact (h.withProgress _).perform _

/-- The engine is called for a task that has just been entered. -/
theorem start (engine : LogEngine ε ρ) (source : Source) (pollInterval : Duration)
    (task : FetchTask) (shared : Shared ε κ) :
    let begun := Execution.start engine source (task.reading pollInterval) shared
    begun.1.Reflects task.range begun.2.2 false ∧ begun.1.ending = none := by
  refine ⟨⟨rfl, rfl, rfl, rfl, rfl, ?_⟩, rfl⟩
  intro record offered
  cases offered

end Execution.Reflects

end ChangeStream
