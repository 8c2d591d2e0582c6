import ChangeStream.Proofs.Calls
import ChangeStream.Sample
import ChangeStream.Sink.Recording
import Mathlib.Data.List.Induction

/-!
# The END watermark of a bounded read

The first position at or after the end that is reported while the context runs makes the read hand
its END watermark to the sink. Whatever the sink answers then gives the context its verdict, so that
this watermark is the only one and the last record that is handed over. The flag plays no part in
it: it may be cleared and set again at any time.
-/

namespace ChangeStream.Reading

variable {κ : Type} (sink : Sink κ)

/-- The engine reports a position at or after the end, after some calls which left the
context running. -/
structure ComesToEnd (reading : Reading) (state : κ) (stop : Position) (before : List Call)
    (position : Position) : Prop where
  running : (reading.performAll sink state before).1.run.isRunning = true
  reached : position.hasReached stop = true

/-- Such a report has the END watermark handed over, and the answer of the sink decides the read. -/
theorem perform_advance_at_end {reading : Reading} {stop position : Position}
    (kind : reading.run.kind = .completionDriven) (bounded : reading.range.stop = .bounded stop)
    (running : reading.run.isRunning = true) (reached : position.hasReached stop = true)
    (state : κ) :
    let record : Record := .watermark ⟨reading.range.id, position, .ending⟩
    let result := reading.perform sink state (.signal (.advance position))
    result.2.2.attempts = [(record, (sink state record).1.refusal)] ∧
      ∃ verdict, result.1.run.verdict = some verdict := by
  intro record result
  have offered : (reading.offer? (.advance position)).1 = some record := by
    rw [offer?_advance reading bounded, running, reached]
    rfl
  constructor
  · simp only [result, perform, handle_attempts, offered, Option.map_some, Option.toList_some]
  · have hnone := (reading.run.isRunning_iff.mp running).1
    simp only [result, perform, handle_of_offered sink reading state offered, conclude_eq, hnone,
      kind, Option.none_or]
    cases (sink state record).1.refusal with
    | none => exact ⟨.completed, rfl⟩
    | some error => exact ⟨.failed, rfl⟩

/-- Nothing else has a watermark handed over. -/
theorem advance_of_watermark_attempt {reading : Reading} {stop : Position}
    (bounded : reading.range.stop = .bounded stop) (state : κ) {call : Call}
    {attempt : Record × Option DispatchError}
    (attempted : attempt ∈ (reading.perform sink state call).2.2.attempts)
    (watermark : attempt.1.isWatermark = true) :
    ∃ position, call = .signal (.advance position) ∧ reading.run.isRunning = true ∧
      position.hasReached stop = true := by
  cases call with
  | setRunning running => cases attempted
  | finish =>
    simp only [perform, finish_trace, Trace.attempts_append, Trace.attempts_ofLogs] at attempted
    cases attempted
  | fail => cases attempted
  | signal signal =>
    simp only [perform, handle_attempts, Option.mem_toList, Option.map_eq_some_iff] at attempted
    obtain ⟨record, offered, rfl⟩ := attempted
    cases signal with
    | change event =>
      rw [offer?_change] at offered
      split at offered
      · obtain rfl := Option.some.inj offered
        cases watermark
      · cases offered
    | advance position =>
      have running := (reading.offers_of_offer? offered).2
      rw [offer?_advance reading bounded, running] at offered
      cases hreached : position.hasReached stop with
      | true => exact ⟨position, rfl, running, hreached⟩
      | false => simp [hreached] at offered

/-- A watermark is only handed over because the engine came to the end. -/
theorem comesToEnd_of_watermark_attempt {reading : Reading} {stop : Position}
    (bounded : reading.range.stop = .bounded stop) (state : κ) {calls : List Call}
    {attempt : Record × Option DispatchError}
    (attempted : attempt ∈ reading.attempts sink state calls)
    (watermark : attempt.1.isWatermark = true) :
    ∃ before position, before ++ [.signal (.advance position)] <+: calls ∧
      reading.ComesToEnd sink state stop before position := by
  -- From the end: the last call is the one in question, or else it adds nothing to look for.
  induction calls using List.reverseRecOn with
  | nil => cases attempted
  | append_singleton calls call ih =>
    rw [attempts_append, List.mem_append] at attempted
    rcases attempted with earlier | last
    · obtain ⟨before, position, opens, arrival⟩ := ih earlier
      exact ⟨before, position, opens.trans (List.prefix_append calls [call]), arrival⟩
    · rw [attempts_cons, attempts_nil, List.append_nil] at last
      have hstop := (reading.performAll_fixed sink state calls).1 ▸ bounded
      obtain ⟨position, rfl, running, reached⟩ :=
        advance_of_watermark_attempt sink hstop _ last watermark
      exact ⟨calls, position, List.prefix_rfl, running, reached⟩

/-- Once the engine has come to the end, the END watermark has been handed over as the last record,
and the read is decided. -/
theorem performAll_of_comesToEnd {reading : Reading} {stop position : Position} {state : κ}
    {calls before : List Call} (kind : reading.run.kind = .completionDriven)
    (bounded : reading.range.stop = .bounded stop)
    (opens : before ++ [.signal (.advance position)] <+: calls)
    (arrival : reading.ComesToEnd sink state stop before position) :
    let record : Record := .watermark ⟨reading.range.id, position, .ending⟩
    let middle := (reading.performAll sink state before).2.1
    reading.attempts sink state calls =
        reading.attempts sink state before ++ [(record, (sink middle record).1.refusal)] ∧
      ∃ verdict, (reading.performAll sink state calls).1.run.verdict = some verdict := by
  intro record middle
  obtain ⟨after, rfl⟩ := opens
  obtain ⟨hrange, hkind⟩ := reading.performAll_fixed sink state before
  obtain ⟨hattempt, verdict, given⟩ := perform_advance_at_end sink (hkind.trans kind)
    ((congrArg Range.stop hrange).trans bounded) arrival.running arrival.reached middle
  rw [hrange] at hattempt
  -- Taken or refused, the watermark has given the context a verdict, and no flag takes it back.
  obtain ⟨hverdict, hrest⟩ := performAll_of_verdict sink given
    ((reading.performAll sink state before).1.perform sink middle (.signal (.advance position))).2.1
      after
  constructor
  · rw [List.append_assoc, attempts_append, List.singleton_append, attempts_cons, hattempt, hrest,
      List.append_nil]
  · refine ⟨verdict, ?_⟩
    rw [List.append_assoc, performAll_append]
    exact hverdict

/-- The engine comes to the end only once, since the context runs no more after it. -/
theorem not_comesToEnd_earlier {reading : Reading} {stop position other : Position} {state : κ}
    {before earlier : List Call} (kind : reading.run.kind = .completionDriven)
    (bounded : reading.range.stop = .bounded stop)
    (arrival : reading.ComesToEnd sink state stop before position)
    (opens : earlier ++ [.signal (.advance other)] <+: before) :
    ¬ reading.ComesToEnd sink state stop earlier other := by
  intro first
  obtain ⟨-, verdict, given⟩ := performAll_of_comesToEnd sink kind bounded opens first
  have undecided := (RunContext.isRunning_iff _).mp arrival.running
  rw [given] at undecided
  cases undecided.1

/-- No watermark is handed over before the engine comes to the end. -/
theorem not_isWatermark_before {reading : Reading} {stop position : Position} {state : κ}
    {before : List Call} (kind : reading.run.kind = .completionDriven)
    (bounded : reading.range.stop = .bounded stop)
    (arrival : reading.ComesToEnd sink state stop before position) :
    ∀ attempt ∈ reading.attempts sink state before, attempt.1.isWatermark = false := by
  intro attempt attempted
  cases hwatermark : attempt.1.isWatermark with
  | false => rfl
  | true =>
    obtain ⟨earlier, other, opens, first⟩ :=
      comesToEnd_of_watermark_attempt sink bounded state attempted hwatermark
    exact absurd first (not_comesToEnd_earlier sink kind bounded arrival opens)

theorem countP_isWatermark_le {reading : Reading} {stop : Position} {state : κ} {calls : List Call}
    (kind : reading.run.kind = .completionDriven) (bounded : reading.range.stop = .bounded stop) :
    (reading.attempts sink state calls).countP (fun attempt => attempt.1.isWatermark) ≤ 1 := by
  by_cases hnone : ∀ attempt ∈ reading.attempts sink state calls, attempt.1.isWatermark = false
  · rw [List.countP_eq_zero.mpr (fun attempt attempted => by simp [hnone attempt attempted])]
    omega
  · simp only [not_forall, Bool.not_eq_false] at hnone
    obtain ⟨attempt, attempted, watermark⟩ := hnone
    obtain ⟨before, position, opens, arrival⟩ :=
      comesToEnd_of_watermark_attempt sink bounded state attempted watermark
    have hbefore := not_isWatermark_before sink kind bounded arrival
    rw [(performAll_of_comesToEnd sink kind bounded opens arrival).1, List.countP_append,
      List.countP_eq_zero.mpr (fun attempt attempted => by simp [hbefore attempt attempted])]
    exact Nat.zero_add _ ▸ List.countP_le_length

/-- In every sequence of calls on a bounded read whose context was fresh and takes completion, a
watermark is handed over exactly if the engine comes to the end. It is then the END watermark of the
split, at the position that was reported, handed over once and last, however the sink answers. The
report is the first one at the end that finds the context running, and there is no other. -/
theorem endWatermark_once_and_last {reading : Reading} {stop : Position} {running : Bool}
    {pollInterval : Duration} (fresh : reading.run = .fresh .completionDriven running pollInterval)
    (bounded : reading.range.stop = .bounded stop) (state : κ) (calls : List Call) :
    (reading.attempts sink state calls).countP (fun attempt => attempt.1.isWatermark) ≤ 1 ∧
      ((∃ attempt ∈ reading.attempts sink state calls, attempt.1.isWatermark = true) ↔
        ∃ before position, before ++ [.signal (.advance position)] <+: calls ∧
          reading.ComesToEnd sink state stop before position) ∧
      ∀ before position, before ++ [.signal (.advance position)] <+: calls →
        reading.ComesToEnd sink state stop before position →
        (∀ earlier other, earlier ++ [.signal (.advance other)] <+: before →
          ¬ reading.ComesToEnd sink state stop earlier other) ∧
        (∀ attempt ∈ reading.attempts sink state before, attempt.1.isWatermark = false) ∧
        ∃ refusal, reading.attempts sink state calls = reading.attempts sink state before ++
          [(.watermark ⟨reading.range.id, position, .ending⟩, refusal)] := by
  have kind : reading.run.kind = .completionDriven := by rw [fresh]; rfl
  refine ⟨countP_isWatermark_le sink kind bounded, ⟨?_, ?_⟩, ?_⟩
  · rintro ⟨attempt, attempted, watermark⟩
    exact comesToEnd_of_watermark_attempt sink bounded state attempted watermark
  · rintro ⟨before, position, opens, arrival⟩
    obtain ⟨hattempts, -⟩ := performAll_of_comesToEnd sink kind bounded opens arrival
    rw [hattempts]
    exact ⟨_, List.mem_append_right _ (List.mem_singleton_self _), rfl⟩
  · intro before position opens arrival
    obtain ⟨hattempts, -⟩ := performAll_of_comesToEnd sink kind bounded opens arrival
    exact ⟨fun earlier other => not_comesToEnd_earlier sink kind bounded arrival,
      not_isWatermark_before sink kind bounded arrival, _, hattempts⟩

/-- A read that is told of position 300 while its flag is cleared, and of 250 once the flag
is set again: the sink refuses the watermark at 250, and neither 400 nor a change is handed
over after it. -/
theorem endWatermark_at_reopened_250 :
    let reading : Reading :=
      { range := Sample.split, run := .fresh .completionDriven false (.ofMillis 1), task := none }
    let before : List Call :=
      [.signal (.advance (Sample.scn 300)), .setRunning true,
        .signal (.change (Sample.insert "ORDERS" 150)),
        .signal (.advance (Sample.scn 199))]
    let calls := before ++ [.signal (.advance (Sample.scn 250)), .setRunning true, .finish,
      .signal (.advance (Sample.scn 400)), .signal (.change (Sample.insert "ORDERS" 160))]
    reading.run = .fresh .completionDriven false (.ofMillis 1) ∧
      reading.range.stop = .bounded (Sample.scn 200) ∧
      reading.ComesToEnd Recorder.sink (.refusing 1) (Sample.scn 200) before (Sample.scn 250) ∧
      ∃ refusal, reading.attempts Recorder.sink (.refusing 1) calls =
        reading.attempts Recorder.sink (.refusing 1) before ++
          [(.watermark ⟨⟨"split-0"⟩, Sample.scn 250, .ending⟩, refusal)] := by
  intro reading before calls
  have arrival :
      reading.ComesToEnd Recorder.sink (.refusing 1) (Sample.scn 200) before (Sample.scn 250) :=
    ⟨by decide, by decide⟩
  have fresh : reading.run = .fresh .completionDriven false (.ofMillis 1) := rfl
  have bounded : reading.range.stop = .bounded (Sample.scn 200) := rfl
  have last := (endWatermark_once_and_last Recorder.sink fresh bounded (.refusing 1) calls).2.2
  exact ⟨fresh, bounded, arrival, (last before (Sample.scn 250) ⟨_, rfl⟩ arrival).2.2⟩

end ChangeStream.Reading
