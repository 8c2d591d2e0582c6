import ChangeStream.Proofs.Calls
import ChangeStream.Sample
import ChangeStream.Sink.Recording

/-!
# Changes are handed on, and a refusal stops the read

The changes that a read hands to the sink are the changes that the engine signals while the context
runs, each once and in this order. The first record that the sink refuses is the last one that it is
handed: the refusal is the one error that is reported, and it gives the context a verdict, which
nothing takes back. No matter whether the range has an end, which kind of context it is read with,
and what is done to the context in between.
-/

namespace ChangeStream

/-- What a sink answers when it is handed some records, one after the other. -/
def Sink.refusals {κ : Type} (sink : Sink κ) (state : κ) : List Record → List (Option DispatchError)
  | [] => []
  | record :: rest => (sink state record).1.refusal :: refusals sink (sink state record).2 rest

namespace Reading

variable {κ : Type} (sink : Sink κ) (reading : Reading) (state : κ) (call : Call)
  (calls : List Call)

/-- The changes that are signalled while the context runs. -/
def changesHeard (reading : Reading) (state : κ) : List Call → List Change
  | [] => []
  | call :: calls =>
    let heard :=
      match call with
      | .signal (.change event) => if reading.run.isRunning then [event] else []
      | .signal (.advance _) | .setRunning _ | .finish | .fail => []
    let result := reading.perform sink state call
    heard ++ changesHeard result.1 result.2.1 calls

/-! ## One call -/

/-- The record that a call makes the read hand to the sink. -/
def handed (reading : Reading) : Call → Option Record
  | .signal signal => (reading.offer? signal).1
  | .setRunning _ | .finish | .fail => none

theorem perform_attempts :
    (reading.perform sink state call).2.2.attempts =
      ((reading.handed call).map fun record => (record, (sink state record).1.refusal)).toList := by
  cases call with
  | signal signal => exact handle_attempts sink reading state signal
  | finish =>
    rw [perform, Trace.attempts_append, finish_trace, Trace.attempts_ofLogs]
    rfl
  | setRunning running => rfl
  | fail => rfl

theorem perform_sink :
    (reading.perform sink state call).2.1 =
      (reading.handed call).elim state fun record => (sink state record).2 := by
  cases call with
  | signal signal =>
    cases offered : (reading.offer? signal).1 <;> simp [perform, handle, handed, offered]
  | setRunning running => rfl
  | finish => rfl
  | fail => rfl

theorem eventKind_eq (record : Record) :
    eventKind record = if record.isWatermark then .watermark else .change := by
  cases record <;> rfl

theorem perform_reports :
    (reading.perform sink state call).2.2.reports =
      (reading.perform sink state call).2.2.attempts.filterMap fun attempt =>
        attempt.2.map
          (.dispatch reading.range.id (if attempt.1.isWatermark then .watermark else .change)) := by
  rw [perform_attempts]
  cases call with
  | signal signal =>
    cases offered : (reading.offer? signal).1 with
    | none => simp [perform, handle, handed, offered]
    | some record =>
      cases hrefusal : (sink state record).1.refusal <;>
        simp [perform, handle, handed, offered, hrefusal, eventKind_eq]
  | finish =>
    rw [perform, Trace.reports_append, finish_trace, Trace.reports_ofLogs]
    rfl
  | setRunning running => rfl
  | fail => rfl

/-- The changes handed over by a call are those heard. -/
theorem perform_changes :
    ((reading.perform sink state call).2.2.attempts.map Prod.fst).filter
      (fun record => !record.isWatermark) =
      (reading.changesHeard sink state [call]).map (.change reading.range.id) := by
  rw [perform_attempts]
  cases call with
  | signal signal =>
    cases signal with
    | change event =>
      simp only [handed, offer?_change, changesHeard]
      split <;> simp [Record.isWatermark, Record.watermark?]
    | advance position =>
      simp only [handed, changesHeard]
      cases offered : (reading.offer? (.advance position)).1 with
      | none => simp
      | some record =>
        -- What a position makes the read hand over is a watermark.
        have watermark : record.isWatermark = true := by
          cases hstop : reading.range.stop with
          | noStopping => simp [offer?_advance_unbounded reading hstop] at offered
          | bounded stop =>
            rw [offer?_advance reading hstop] at offered
            split at offered
            · obtain rfl := Option.some.inj offered
              rfl
            · cases offered
        simp [watermark]
  | setRunning running => rfl
  | finish => rfl
  | fail => rfl

theorem perform_of_refused {record : Record} {error : DispatchError}
    (refused : (record, some error) ∈ (reading.perform sink state call).2.2.attempts) :
    (reading.perform sink state call).1.run.verdict = some .failed := by
  rw [perform_attempts] at refused
  cases call with
  | signal signal =>
    cases offered : (reading.offer? signal).1 with
    | none => simp [handed, offered] at refused
    | some other =>
      simp only [handed, offered, Option.map_some, Option.toList_some, List.mem_singleton,
        Prod.mk.injEq] at refused
      obtain ⟨rfl, hrefusal⟩ := refused
      -- A record is handed over to a context without a verdict, so that this one counts.
      have undecided := ((RunContext.isRunning_iff _).mp (reading.offers_of_offer? offered).2).1
      simp only [perform, handle_of_offered sink reading state offered, conclude_eq, ← hrefusal,
        undecided, Option.none_or]
      cases record <;> rfl
  | setRunning running => cases refused
  | finish => cases refused
  | fail => cases refused

/-! ## Sequences of calls -/

theorem changesHeard_cons :
    reading.changesHeard sink state (call :: calls) =
      reading.changesHeard sink state [call] ++
        (reading.perform sink state call).1.changesHeard sink
          (reading.perform sink state call).2.1 calls := by
  simp [changesHeard]

theorem attempts_changes :
    ((reading.attempts sink state calls).map Prod.fst).filter (fun record => !record.isWatermark) =
      (reading.changesHeard sink state calls).map (.change reading.range.id) := by
  induction calls generalizing reading state with
  | nil => rfl
  | cons call calls ih =>
    have same := (reading.perform_fixed sink state call).1
    rw [attempts_cons, changesHeard_cons, List.map_append, List.map_append, List.filter_append,
      perform_changes, ih, same]

/-- The answers on record are those of the sink to the records that it was handed, and
to no others. -/
theorem attempts_refusals :
    (reading.attempts sink state calls).map Prod.snd =
      sink.refusals state ((reading.attempts sink state calls).map Prod.fst) := by
  induction calls generalizing reading state with
  | nil => rfl
  | cons call calls ih =>
    rw [attempts_cons, perform_attempts, perform_sink]
    cases hhanded : reading.handed call with
    | none => simpa using ih (reading.perform sink state call).1 state
    | some record =>
      simpa [Sink.refusals] using ih (reading.perform sink state call).1 (sink state record).2

theorem performAll_reports :
    (reading.performAll sink state calls).2.2.reports =
      (reading.attempts sink state calls).filterMap fun attempt =>
        attempt.2.map
          (.dispatch reading.range.id (if attempt.1.isWatermark then .watermark else .change)) := by
  induction calls generalizing reading state with
  | nil => rfl
  | cons call calls ih =>
    have same := (reading.perform_fixed sink state call).1
    rw [attempts_cons, List.filterMap_append, ← perform_reports, ← same, ← ih]
    exact Trace.reports_append _ _

/-- A refused record is the last one handed over, and the read has failed. -/
theorem last_of_refused {before after : List (Record × Option DispatchError)} {record : Record}
    {error : DispatchError}
    (refused : reading.attempts sink state calls = before ++ (record, some error) :: after) :
    after = [] ∧ (∀ attempt ∈ before, attempt.2 = none) ∧
      (reading.performAll sink state calls).1.run.verdict = some .failed := by
  induction calls generalizing reading state before with
  | nil => simp at refused
  | cons call calls ih =>
    rw [attempts_cons, perform_attempts] at refused
    cases hhanded : reading.handed call with
    | none =>
      rw [hhanded] at refused
      exact ih _ _ refused
    | some other =>
      simp only [hhanded, Option.map_some, Option.toList_some, List.singleton_append] at refused
      cases hrefusal : (sink state other).1.refusal with
      | none =>
        -- The record is taken, so that the refused one comes later.
        rw [hrefusal] at refused
        cases before with
        | nil => cases (List.cons.inj refused).1
        | cons first before =>
          obtain ⟨rfl, later⟩ := List.cons.inj refused
          obtain ⟨last, taken, verdict⟩ := ih _ _ later
          exact ⟨last, List.forall_mem_cons.mpr ⟨rfl, taken⟩, verdict⟩
      | some cause =>
        have attempted : (other, some cause) ∈ (reading.perform sink state call).2.2.attempts := by
          simp [perform_attempts, hhanded, hrefusal]
        have failed := reading.perform_of_refused sink state call attempted
        obtain ⟨verdict, nothing⟩ :=
          performAll_of_verdict sink failed (reading.perform sink state call).2.1 calls
        rw [nothing] at refused
        cases before with
        | nil => exact ⟨(List.cons.inj refused).2.symm, by simp, verdict⟩
        | cons first before => exact absurd (List.cons.inj refused).2.symm (by simp)

/-- In every sequence of calls on a read, the changes handed to the sink are the changes signalled
while the context runs, each once, in this order and with the id of the range. The sink has answered
for each record by itself. If it takes all that it is handed, no error is reported. A record that it
refuses is the only refused one and the last that it is handed; the one error reported names the
split, the kind of record and the cause that the sink gave; and the context has failed, whatever is
called after the refusal. -/
theorem refused_dispatch_is_last :
    let attempts := reading.attempts sink state calls
    let result := reading.performAll sink state calls
    (attempts.map Prod.fst).filter (fun record => !record.isWatermark) =
        (reading.changesHeard sink state calls).map (.change reading.range.id) ∧
      attempts.map Prod.snd = sink.refusals state (attempts.map Prod.fst) ∧
      ((∀ attempt ∈ attempts, attempt.2 = none) → result.2.2.reports = []) ∧
      ∀ before record error after, attempts = before ++ (record, some error) :: after →
        after = [] ∧ (∀ attempt ∈ before, attempt.2 = none) ∧
          result.2.2.reports =
            [.dispatch reading.range.id (if record.isWatermark then .watermark else .change)
              error] ∧
          result.1.run.stopReason = some .failed := by
  intro attempts result
  have hreports := reading.performAll_reports sink state calls
  have reports_of_taken {given : List (Record × Option DispatchError)}
      (taken : ∀ attempt ∈ given, attempt.2 = none) :
      (given.filterMap fun attempt =>
        attempt.2.map
          (FetchError.dispatch reading.range.id
            (if attempt.1.isWatermark then .watermark else .change))) =
        [] := by
    apply List.filterMap_eq_nil_iff.mpr
    intro attempt member
    rw [taken attempt member, Option.map_none]
  refine ⟨reading.attempts_changes sink state calls, reading.attempts_refusals sink state calls,
    ?_, ?_⟩
  · intro taken
    exact hreports.trans (reports_of_taken taken)
  · intro before record error after refused
    obtain ⟨last, taken, failed⟩ := reading.last_of_refused sink state calls refused
    subst last
    refine ⟨rfl, taken, ?_, RunContext.stopReason_of_verdict _ failed⟩
    rw [hreports, show reading.attempts sink state calls = _ from refused, List.filterMap_append,
      reports_of_taken taken]
    rfl

/-- A sink refuses the second change, and the read is closed while it has it. The read is finished
after that, its flag is set again, and the engine goes on signalling. -/
theorem refused_change_is_last :
    let sink : Sink Nat :=
      fun count _ => (if count = 1 then ⟨true, some (.rejected "full")⟩ else .accepted, count + 1)
    let reading : Reading :=
      { range := Sample.split, run := .fresh .outerDriven true (.ofMillis 1), task := none }
    let calls : List Call :=
      [.signal (.change (Sample.insert "ORDERS" 110)), .finish, .signal (.advance (Sample.scn 150)),
        .signal (.change (Sample.insert "ORDERS" 120)), .finish, .setRunning true,
        .signal (.change (Sample.insert "ORDERS" 130)), .signal (.advance (Sample.scn 250)),
        .setRunning false]
    let result := reading.performAll sink 0 calls
    reading.attempts sink 0 calls =
        [(.change ⟨"split-0"⟩ (Sample.insert "ORDERS" 110), none)] ++
          (.change ⟨"split-0"⟩ (Sample.insert "ORDERS" 120), some (.rejected "full")) :: [] ∧
      result.2.2.reports = [.dispatch ⟨"split-0"⟩ .change (.rejected "full")] ∧
      result.1.run.stopReason = some .failed := by
  intro sink reading calls result
  have refused : reading.attempts sink 0 calls =
      [(.change ⟨"split-0"⟩ (Sample.insert "ORDERS" 110), none)] ++
        (.change ⟨"split-0"⟩ (Sample.insert "ORDERS" 120), some (.rejected "full")) :: [] := by
          decide
  obtain ⟨-, -, reports, stopped⟩ :=
    (reading.refused_dispatch_is_last sink 0 calls).2.2.2 _ _ _ _ refused
  exact ⟨refused, reports, stopped⟩

end Reading

end ChangeStream
