import ChangeStream.Proofs.Reading

/-!
# Sequences of calls

A sequence of calls is taken apart at any place: what is handed to the sink is what the first part
hands over, and then what the second part hands over to the sink as the first left it. A read whose
context has a verdict keeps it and hands nothing over any more.
-/

namespace ChangeStream.Reading

variable {κ : Type} (sink : Sink κ)

/-- What a sequence of calls makes the read hand to the sink, with the answers. -/
def attempts (reading : Reading) (state : κ) (calls : List Call) :
    List (Record × Option DispatchError) :=
  (reading.performAll sink state calls).2.2.attempts

/-! ## One call -/

theorem handle_attempts (reading : Reading) (state : κ) (signal : Signal) :
    (reading.handle sink state signal).2.2.attempts =
      ((reading.offer? signal).1.map fun record =>
        (record, (sink state record).1.refusal)).toList := by
  cases hoffer : (reading.offer? signal).1 <;> simp [handle, hoffer]

theorem handle_of_offered (reading : Reading) (state : κ) {signal : Signal} {record : Record}
    (offered : (reading.offer? signal).1 = some record) :
    (reading.handle sink state signal).1 = (reading.conclude record (sink state record).1).1 := by
  simp [handle, offered]

theorem handle_of_not_offered (reading : Reading) (state : κ) {signal : Signal}
    (nothing : (reading.offer? signal).1 = none) :
    (reading.handle sink state signal).1 = reading := by
  simp [handle, nothing]

/-- Calls change neither the range nor the kind of the context. -/
theorem perform_fixed (reading : Reading) (state : κ) (call : Call) :
    (reading.perform sink state call).1.range = reading.range ∧
      (reading.perform sink state call).1.run.kind = reading.run.kind := by
  cases call with
  | signal signal =>
    cases hoffer : (reading.offer? signal).1 with
    | none => simp only [perform, handle_of_not_offered sink reading state hoffer, and_self]
    | some record =>
      simp only [perform, handle_of_offered sink reading state hoffer, conclude_eq, and_self]
  | setRunning running => exact ⟨rfl, rfl⟩
  | finish => simp only [perform, finish_eq, and_self]
  | fail => simp only [perform, fail_eq, and_self]

/-- A verdict stays, and nothing is handed over after it. -/
theorem perform_of_verdict {reading : Reading} {verdict : Verdict}
    (given : reading.run.verdict = some verdict) (state : κ) (call : Call) :
    (reading.perform sink state call).1.run.verdict = some verdict ∧
      (reading.perform sink state call).2.2.attempts = [] := by
  cases call with
  | signal signal =>
    have nothing := reading.offer?_of_verdict given signal
    constructor
    · simp only [perform, handle_of_not_offered sink reading state nothing, given]
    · simp only [perform, handle_attempts, nothing, Option.map_none, Option.toList_none]
  | setRunning running => exact ⟨given, rfl⟩
  | finish =>
    constructor
    · simp only [perform, finish_eq, given, Option.some_or]
    · simp only [perform, finish_trace, Trace.attempts_append, Trace.attempts_ofLogs]
      rfl
  | fail =>
    constructor
    · simp only [perform, fail_eq, given, Option.some_or]
    · rfl

/-! ## Sequences -/

theorem performAll_append (reading : Reading) (state : κ) (first second : List Call) :
    reading.performAll sink state (first ++ second) =
      let middle := reading.performAll sink state first
      let last := middle.1.performAll sink middle.2.1 second
      (last.1, last.2.1, middle.2.2 ++ last.2.2) := by
  induction first generalizing reading state with
  | nil => rfl
  | cons call rest ih => simp only [List.cons_append, performAll, ih, List.append_assoc]

theorem attempts_append (reading : Reading) (state : κ) (first second : List Call) :
    reading.attempts sink state (first ++ second) =
      reading.attempts sink state first ++
        (reading.performAll sink state first).1.attempts sink
          (reading.performAll sink state first).2.1
          second := by
  simp only [attempts, performAll_append, Trace.attempts_append]

@[simp] theorem attempts_nil (reading : Reading) (state : κ) :
    reading.attempts sink state [] = [] := rfl

theorem attempts_cons (reading : Reading) (state : κ) (call : Call) (calls : List Call) :
    reading.attempts sink state (call :: calls) =
      (reading.perform sink state call).2.2.attempts ++
        (reading.perform sink state call).1.attempts sink
          (reading.perform sink state call).2.1 calls := by
  simp only [attempts, performAll, Trace.attempts_append]

theorem performAll_fixed (reading : Reading) (state : κ) (calls : List Call) :
    (reading.performAll sink state calls).1.range = reading.range ∧
      (reading.performAll sink state calls).1.run.kind = reading.run.kind := by
  induction calls generalizing reading state with
  | nil => exact ⟨rfl, rfl⟩
  | cons call rest ih =>
    obtain ⟨hrange, hkind⟩ := reading.perform_fixed sink state call
    have htail := ih (reading.perform sink state call).1 (reading.perform sink state call).2.1
    rw [hrange, hkind] at htail
    exact htail

theorem performAll_of_verdict {reading : Reading} {verdict : Verdict}
    (given : reading.run.verdict = some verdict) (state : κ) (calls : List Call) :
    (reading.performAll sink state calls).1.run.verdict = some verdict ∧
      reading.attempts sink state calls = [] := by
  induction calls generalizing reading state with
  | nil => exact ⟨given, rfl⟩
  | cons call rest ih =>
    obtain ⟨hkept, hnothing⟩ := perform_of_verdict sink given state call
    obtain ⟨hverdict, hrest⟩ := ih hkept (reading.perform sink state call).2.1
    refine ⟨hverdict, ?_⟩
    rw [attempts_cons, hnothing, hrest, List.append_nil]

end ChangeStream.Reading
