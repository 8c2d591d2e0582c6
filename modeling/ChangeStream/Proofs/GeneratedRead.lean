import ChangeStream.Proofs.ScriptedRead
import ChangeStream.Proofs.Undisturbed
import ChangeStream.Sample

/-!
# Rounds read like one script

A script whose rounds come from a generator is read like the script of the same steps in one piece,
for any sink. The engine may open rounds without steps and then looks at the run context once more
often, which nobody sees. It opens the rounds in their order, each once, and none after the one with
the step that it takes last; what it has not taken of that one stays in the script.
-/

namespace ChangeStream

variable {ε ρ κ : Type}

/-! ## Traces of rounds -/

/-- The numbers from a first one up to a last one, in two parts. -/
theorem range'_split {first middle last : Nat} (before : first ≤ middle) (after : middle ≤ last) :
    List.range' first (last - first) =
      List.range' first (middle - first) ++ List.range' middle (last - middle) := by
  have joined := List.range'_append_1 (s := first) (m := middle - first) (n := last - middle)
  rw [show first + (middle - first) = middle by omega,
    show middle - first + (last - middle) = last - first by omega]
    at joined
  exact joined.symm

namespace Trace

/-- The rounds at whose beginning the engine looked around. -/
def roundsTaken (trace : Trace) : List Nat :=
  trace.filterMap fun
    | .roundTaken round _ => some round
    | _ => none

/-- What else can be seen. -/
def withoutRounds (trace : Trace) : Trace :=
  trace.filter fun
    | .roundTaken .. => false
    | _ => true

/-- The rounds from one to another are seen to begin, in their order, if the engine looks
around at all. -/
structure Opens (observes : Bool) (first last : Nat) (trace : Trace) : Prop where
  le : first ≤ last
  rounds : trace.roundsTaken = if observes then List.range' first (last - first) else []

variable {observes : Bool} {first middle last : Nat} {trace more : Trace}

@[simp] theorem roundsTaken_append :
    (trace ++ more).roundsTaken = trace.roundsTaken ++ more.roundsTaken :=
  List.filterMap_append

@[simp] theorem withoutRounds_append :
    (trace ++ more).withoutRounds = trace.withoutRounds ++ more.withoutRounds :=
  List.filter_append _ _

@[simp] theorem roundsTaken_ofLogs (events : List LogEvent) : (ofLogs events).roundsTaken = [] := by
  rw [ofLogs, roundsTaken, List.filterMap_map]
  exact List.filterMap_eq_nil_iff.mpr fun _ _ => rfl

theorem withoutRounds_of_no_rounds (none : trace.roundsTaken = []) :
    trace.withoutRounds = trace := by
  apply List.filter_eq_self.mpr
  intro occurrence seen
  have silent := List.filterMap_eq_nil_iff.mp none occurrence seen
  cases occurrence <;> first | rfl | cases silent

theorem opens_of_no_rounds (none : trace.roundsTaken = []) : trace.Opens observes first first :=
  ⟨Nat.le_refl first, by rw [none, Nat.sub_self]; split <;> rfl⟩

theorem Opens.append (opens : trace.Opens observes first middle)
    (further : more.Opens observes middle last) :
    (trace ++ more).Opens observes first last := by
  refine ⟨Nat.le_trans opens.le further.le, ?_⟩
  rw [roundsTaken_append, opens.rounds, further.rounds]
  cases observes with
  | false => rfl
  | true => exact (range'_split opens.le further.le).symm

end Trace

/-- No round begins while the sink answers. -/
theorem Reading.conclude_roundsTaken (reading : Reading) (record : Record) (reply : Reply) :
    (reading.conclude record reply).2.roundsTaken = [] := by
  obtain ⟨closes, refusal⟩ := reply
  cases refusal with
  | some error => rfl
  | none =>
    cases record with
    | change split event => rfl
    | watermark event => exact Trace.roundsTaken_ofLogs _

/-! ## Scripts of generated rounds -/

namespace Script

/-- A script of rounds of steps without end, in which the engine looks around as each round
begins if it is to. -/
def generatingWith (observes : Bool) (rounds : Nat → List Step) : Script :=
  fresh [] fun n => some { Round.ofSteps (rounds n) with observes }

/-- The script in one piece: what is left of it up to a round, and no further rounds. -/
def unrolled (script : Script) (rounds : Nat → List Step) (total : Nat) : Script :=
  { script with
    steps := script.steps ++ (List.range' script.round (total - script.round)).flatMap rounds
    rounds := fun _ => none
    round := 0 }

/-- The script after the engine has been called for a range once more. -/
def called (script : Script) (range : Range) : Script :=
  { script with executions := script.executions + 1, starts := script.starts ++ [range.start] }

/-- A script of generated rounds that has been followed for a while. The steps that it holds are
left from the round opened last. -/
structure Generated (observes : Bool) (rounds : Nat → List Step) (total : Nat)
    (script : Script) : Prop where
  rounds_eq : script.rounds = fun n => some { Round.ofSteps (rounds n) with observes }
  round_le : script.round ≤ total
  left : script.steps ≠ [] → ∃ k before, script.round = k + 1 ∧ rounds k = before ++ script.steps

/-- The step was taken last, from the round opened last, and the steps after it are left. -/
def Took (script : Script) (rounds : Nat → List Step) (step : Step) : Prop :=
  ∃ k before, script.round = k + 1 ∧ rounds k = before ++ step :: script.steps

end Script

namespace Step

/-- What a step makes the engine do. -/
def move : Step → Move
  | change event => .signal (.change event)
  | advance position => .signal (.advance position)
  | fail reason => .leave (.failed (.failed reason))
  | idle | stall => .idle
  | panic message => .leave (.panicked message)

/-- Where the engine is after a step. -/
def phaseAfter : Step → ScriptPhase
  | stall => .taking
  | change _ | advance _ | idle => .looking
  | fail _ | panic _ => .leaving

end Step

namespace GeneratedRead

open Execution (Goes)
open ScriptedRead (between)

variable {g : Nat → List Step} {observes : Bool} {total : Nat} {reading : Reading}
  {run : ScriptRun} {script : Script} {step : Step} {rest : List Step}

theorem takeStep_cons (more : List Step) (left : script.steps = step :: more) :
    run.takeStep script = (step.move, run.inPhase step.phaseAfter, script.having [step] more) := by
  obtain ⟨steps, rounds, round, releases, gatesOpen, executions, advances, stalls, starts⟩ := script
  cases left
  cases step <;> rfl

/-- The engine takes the next step of a script that holds one. -/
theorem next_taking {more : List Step} (left : script.steps = step :: more) :
    ScriptRun.next none (run.inPhase .taking) script =
      (step.move, run.inPhase step.phaseAfter, script.having [step] more) := by
  rw [← takeStep_cons more left]
  obtain ⟨steps, rounds, round, releases, gatesOpen, executions, advances, stalls, starts⟩ := script
  cases left
  rfl

/-- The script at the beginning of its next round. -/
def opened (g : Nat → List Step) (script : Script) : Script :=
  { script with steps := g script.round, round := script.round + 1 }

theorem opened_generated (generated : script.Generated observes g total)
    (more : script.round < total) :
    (opened g script).Generated observes g total :=
  ⟨generated.rounds_eq, more, fun _ => ⟨script.round, [], rfl, rfl⟩⟩

theorem opened_unrolled (none : script.steps = []) (more : script.round < total) :
    (opened g script).unrolled g total = script.unrolled g total := by
  obtain ⟨count, rfl⟩ := Nat.exists_eq_add_of_lt more
  have here : script.round + count + 1 - script.round = count + 1 := by omega
  have next : script.round + count + 1 - (script.round + 1) = count := by omega
  simp [Script.unrolled, opened, none, here, next, List.range'_succ]

/-- A script that holds no step has its next round opened, and the engine looks
around if it is to. -/
theorem goes_opening {κ : Type} (outlet : Outlet κ) (sink : κ) (reading : Reading)
    (run : ScriptRun) (generated : script.Generated observes g total) (none : script.steps = []) :
    ∃ phase seen,
      Goes scriptedEngine outlet (between reading run .taking) ⟨script, sink⟩ seen
        (between reading run phase)
        ⟨script, sink⟩ ∧
      seen.withoutRounds = [] ∧ seen.Opens observes script.round (script.round + 1) ∧
      ScriptRun.next Option.none (run.inPhase phase) script = run.takeStep (opened g script) := by
  obtain ⟨steps, rounds, round, releases, gatesOpen, executions, advances, stalls, starts⟩ := script
  obtain ⟨rounds_eq, -, -⟩ := generated
  obtain rfl : rounds = _ := rounds_eq
  obtain rfl : steps = [] := none
  cases observes with
  | false => exact ⟨.taking, [], .refl _ _, rfl, ⟨Nat.le_succ round, rfl⟩, rfl⟩
  | true =>
    refine ⟨.opening (.ofSteps (g round)), [.roundTaken round reading.status], ?_, rfl,
      ⟨Nat.le_succ round, ?_⟩, ?_⟩
    · exact .move rfl rfl rfl (.refl _ _)
    · simp [Trace.roundsTaken]
    · rfl

variable {κ : Type} {outlet : Outlet κ} {sink : κ}

/-- The engine looks at the context of a running read, and goes on. -/
theorem goes_looking {last : Execution ScriptRun} {after : Shared Script κ} {seen : Trace}
    (running : reading.run.stopReason = none) (more : script.isUsedUp = false)
    (goes :
      Goes scriptedEngine outlet (between reading run .taking) ⟨script, sink⟩ seen last after) :
    Goes scriptedEngine outlet (between reading run .looking) ⟨script, sink⟩ seen last after := by
  have next : scriptedEngine.next reading.run.stopReason (run.inPhase .looking) script =
      (.idle, run.inPhase .taking, script) := by
    simp [scriptedEngine, ScriptRun.next, running, more, ScriptRun.inPhase]
  exact .silent rfl rfl next rfl goes

theorem isUsedUp_generated (generated : script.Generated observes g total) :
    script.isUsedUp = false := by
  simp [Script.isUsedUp, generated.rounds_eq]

theorem isUsedUp_of_ne_nil (left : script.steps ≠ []) : script.isUsedUp = false := by
  simp [Script.isUsedUp, left]

/-- The engine comes to take a step, and on its way opens the rounds up to the one that has it. -/
def Fetches (observes : Bool) (g : Nat → List Step) (total : Nat) (outlet : Outlet κ) (sink : κ)
    (reading : Reading) (run : ScriptRun) (script : Script) (step : Step) : Prop :=
  ∃ phase reached fetched more seen,
    Goes scriptedEngine outlet (between reading run .taking) ⟨script, sink⟩ seen
      (between reading run phase)
      ⟨reached, sink⟩ ∧
    seen.withoutRounds = [] ∧ seen.Opens observes script.round fetched.round ∧
    ScriptRun.next none (run.inPhase phase) reached = run.takeStep fetched ∧
    fetched.Generated observes g total ∧ fetched.steps = step :: more ∧
    fetched.unrolled g total = script.unrolled g total

theorem fetches_held {more : List Step} (generated : script.Generated observes g total)
    (left : script.steps = step :: more) :
    Fetches observes g total outlet sink reading run script step :=
  ⟨.taking, script, script, more, [], .refl _ _, rfl, Trace.opens_of_no_rounds rfl,
    (next_taking left).trans (takeStep_cons more left).symm, generated, left, rfl⟩

theorem fetches_opened (running : reading.run.stopReason = none)
    (generated : script.Generated observes g total) (none : script.steps = [])
    (ahead : (script.unrolled g total).steps = step :: rest) :
    Fetches observes g total outlet sink reading run script step := by
  -- The induction is on the rounds that may still be opened.
  generalize remaining : total - script.round = count
  induction count generalizing script with
  | zero => simp [Script.unrolled, none, remaining] at ahead
  | succ count ih =>
    have more : script.round < total := by omega
    obtain ⟨phase, seen, goes, silent, opens, next⟩ :=
      goes_opening outlet sink reading run generated none
    have unrolled := opened_unrolled (g := g) none more
    have generated := opened_generated generated more
    cases left : (opened g script).steps with
    | cons first others =>
      obtain rfl : first = step := by
        rw [← unrolled, Script.unrolled, left] at ahead
        exact (List.cons.inj ahead).1
      exact ⟨phase, script, opened g script, others, seen, goes, silent, opens, next, generated,
        left, unrolled⟩
    | nil =>
      have idles : run.takeStep (opened g script) =
          (.idle, run.inPhase .looking, opened g script) := by
        simp [ScriptRun.takeStep, left]
      have idling : scriptedEngine.next reading.run.stopReason (run.inPhase phase) script =
          (.idle, run.inPhase .looking, opened g script) := by
        rw [running, ← idles]
        exact next
      obtain ⟨phase', reached, fetched, others, further, goes', silent', opens', further'⟩ :=
        ih generated left (unrolled ▸ ahead) (by simp only [opened]; omega)
      have looking := goes_looking running (isUsedUp_generated generated) goes'
      refine ⟨phase', reached, fetched, others, seen ++ further,
        goes.trans (.silent rfl rfl idling rfl looking), ?_, opens.append opens', ?_⟩
      · rw [Trace.withoutRounds_append, silent, silent', List.append_nil]
      · rw [← unrolled]
        exact further'

theorem fetches (running : reading.run.stopReason = none)
    (generated : script.Generated observes g total)
    (ahead : (script.unrolled g total).steps = step :: rest) :
    Fetches observes g total outlet sink reading run script step := by
  cases left : script.steps with
  | nil => exact fetches_opened running generated left ahead
  | cons first others =>
    obtain rfl : first = step := by
      rw [Script.unrolled, left] at ahead
      exact (List.cons.inj ahead).1
    exact fetches_held generated left

/-! ## Two scripts side by side -/

/-- Of an execution with a script of generated rounds and the same execution with that script
in one piece: both come to the same end, and but for the beginning of rounds the same can be
seen of them. -/
def Together (observes : Bool) (g : Nat → List Step) (total : Nat) (outlet : Outlet κ)
    (x : Execution ScriptRun) (script : Script) (sink : κ) : Prop :=
  ∃ last trace seen after state step,
    Goes scriptedEngine outlet x ⟨script.unrolled g total, sink⟩ trace last
      ⟨after.unrolled g total, state⟩ ∧
    Goes scriptedEngine outlet x ⟨script, sink⟩ seen last ⟨after, state⟩ ∧
    seen.withoutRounds = trace ∧ seen.Opens observes script.round after.round ∧
    last.AtEnd outlet state ∧ after.Generated observes g total ∧ after.Took g step

namespace Together

variable {x : Execution ScriptRun} {script' : Script} {state : κ}

theorem atEnd (ended : x.AtEnd outlet sink) (generated : script.Generated observes g total)
    (took : script.Took g step) :
    Together observes g total outlet x script sink :=
  ⟨x, [], [], script, sink, step, .refl _ _, .refl _ _, rfl, Trace.opens_of_no_rounds rfl, ended,
    generated, took⟩

/-- The engine makes the same move with both. -/
theorem move {move : Move} {progress : ScriptRun} (working : x.ending = none)
    (idle : x.offered = none)
    (nextUnrolled : ScriptRun.next x.reading.run.stopReason x.progress (script.unrolled g total) =
      (move, progress, script'.unrolled g total))
    (next : ScriptRun.next x.reading.run.stopReason x.progress script = (move, progress, script'))
    (round : script'.round = script.round)
    (none : ({ x with progress }.perform move).2.roundsTaken = [])
    (rest : Together observes g total outlet ({ x with progress }.perform move).1 script' sink) :
    Together observes g total outlet x script sink := by
  obtain ⟨last, trace, seen, after, state, step, goes, goes', same, opens, ended⟩ := rest
  refine ⟨last, _, _, after, state, step, .move working idle nextUnrolled goes,
    .move working idle next goes', ?_, ?_, ended⟩
  · rw [Trace.withoutRounds_append, Trace.withoutRounds_of_no_rounds none, same]
  · exact (Trace.opens_of_no_rounds none).append (round ▸ opens)

theorem answer {record : Record} {reply : Reply} (working : x.ending = none)
    (offered : x.offered = some record) (answered : outlet sink record = some (reply, state))
    (rest : Together observes g total outlet (x.answer record reply).1 script state) :
    Together observes g total outlet x script sink := by
  have none : (x.answer record reply).2.roundsTaken = [] :=
    x.reading.conclude_roundsTaken record reply
  obtain ⟨last, trace, seen, after, state, step, goes, goes', same, opens, ended⟩ := rest
  refine ⟨last, _, _, after, state, step, .answer working offered answered goes,
    .answer working offered answered goes', ?_, ?_, ended⟩
  · rw [Trace.withoutRounds_append, Trace.withoutRounds_of_no_rounds none, same]
  · exact (Trace.opens_of_no_rounds none).append opens

/-- The engine looks at the context of a running read, and goes on to the next step. -/
theorem looking (running : reading.run.stopReason = none)
    (generated : script.Generated observes g total) (more : (script.unrolled g total).steps ≠ [])
    (rest : Together observes g total outlet (between reading run .taking) script sink) :
    Together observes g total outlet (between reading run .looking) script sink := by
  have next (script : Script) (more : script.isUsedUp = false) :
      ScriptRun.next reading.run.stopReason (run.inPhase .looking) script =
        (.idle, run.inPhase .taking, script) := by
    simp [ScriptRun.next, running, more, ScriptRun.inPhase]
  exact move rfl rfl (next _ (isUsedUp_of_ne_nil more)) (next _ (isUsedUp_generated generated))
    rfl rfl rest

/-- The engine finds the read stopped and returns. -/
theorem stopped {reason : StopReason} (stopped : reading.run.stopReason = some reason)
    (generated : script.Generated observes g total) (took : script.Took g step) :
    Together observes g total outlet (between reading run .looking) script sink := by
  have next (script : Script) :
      ScriptRun.next reading.run.stopReason (run.inPhase .looking) script =
      (.log (.scriptStopped run.source.name (some reason)), run.inPhase .leaving, script) := by
    simp [ScriptRun.next, stopped, ScriptRun.inPhase]
  exact move rfl rfl (next _) (next _) rfl rfl
    (move rfl rfl rfl rfl rfl rfl (atEnd (.inl rfl) generated took))

/-- The engine takes the next step, and the rest of the script is left. -/
theorem taking (running : reading.run.stopReason = none)
    (generated : script.Generated observes g total)
    (ahead : (script.unrolled g total).steps = step :: rest)
    (none : ((between reading run step.phaseAfter).perform step.move).2.roundsTaken = [])
    (goesOn :
      ∀ after : Script, after.Generated observes g total → after.Took g step →
      (after.unrolled g total).steps = rest →
      Together observes g total outlet ((between reading run step.phaseAfter).perform step.move).1
        after sink) :
    Together observes g total outlet (between reading run .taking) script sink := by
  obtain ⟨phase, reached, fetched, more, opening, goes, silent, opens, next, generated,
    left, unrolled⟩ :=
    @fetches _ _ _ _ run _ _ _ _ outlet sink running generated ahead
  rw [← unrolled] at ahead
  obtain ⟨k, before, round, steps⟩ := generated.left (by simp [left])
  rw [left] at steps
  obtain rfl : rest = more ++ (List.range' fetched.round (total - fetched.round)).flatMap g := by
    rw [Script.unrolled, left] at ahead
    exact (List.cons.inj ahead).2.symm
  have followed : (fetched.having [step] more).Generated observes g total :=
    ⟨generated.rounds_eq, generated.round_le,
      fun _ => ⟨k, before ++ [step], round, by rw [steps]; simp [Script.having]⟩⟩
  obtain ⟨last, trace, seen, after, state, final, goesOn, goesOn', same, opens', ended⟩ :=
    goesOn (fetched.having [step] more) followed ⟨k, before, round, steps⟩ rfl
  have nextUnrolled :
      scriptedEngine.next reading.run.stopReason (run.inPhase .taking) (script.unrolled g total) =
      (step.move, run.inPhase step.phaseAfter, (fetched.having [step] more).unrolled g total) := by
    rw [running, ← unrolled]
    exact next_taking ahead
  have nextTaken : scriptedEngine.next reading.run.stopReason (run.inPhase phase) reached =
      (step.move, run.inPhase step.phaseAfter, fetched.having [step] more) := by
    rw [running, ← takeStep_cons more left]
    exact next
  refine ⟨last, _, _, after, state, final, .move rfl rfl nextUnrolled goesOn,
    goes.trans (.move rfl rfl nextTaken goesOn'), ?_, ?_, ended⟩
  · rw [Trace.withoutRounds_append, silent, List.nil_append, Trace.withoutRounds_append, same]
    exact congrArg (· ++ trace) (Trace.withoutRounds_of_no_rounds none)
  · exact opens.append ((Trace.opens_of_no_rounds none).append opens')

/-- After an answer the engine returns if the read has stopped, and else goes on to
the next step. -/
theorem answered (generated : script.Generated observes g total) (took : script.Took g step)
    (goesOn : reading.run.stopReason = none →
      (script.unrolled g total).steps ≠ [] ∧
        Together observes g total outlet (between reading run .taking) script sink) :
    Together observes g total outlet (between reading run .looking) script sink := by
  cases stopReason : reading.run.stopReason with
  | some reason => exact stopped stopReason generated took
  | none =>
    obtain ⟨more, rest⟩ := goesOn stopReason
    exact looking stopReason generated more rest

/-- A signal may make the read offer a record, which the sink may have no room for. -/
theorem signalled {signal : Signal} (generated : script.Generated observes g total)
    (took : script.Took g step)
    (silent : (reading.offer? signal).1 = none →
      Together observes g total outlet (between reading run .looking) script sink)
    (heard :
      ∀ record reply state, (reading.offer? signal).1 = some record →
      Together observes g total outlet (between (reading.conclude record reply).1 run .looking)
        script state) :
    Together observes g total outlet ((between reading run .looking).perform (.signal signal)).1
      script sink := by
  change Together observes g total outlet
    { between reading run .looking with offered := (reading.offer? signal).1 }
    script sink
  cases offered : (reading.offer? signal).1 with
  | none => exact silent offered
  | some record =>
    cases reply : outlet sink record with
    | none => exact atEnd (.inr ⟨record, rfl, reply⟩) generated took
    | some answered => exact answer rfl rfl reply (heard record answered.1 answered.2 offered)

end Together

/-- The answer to the END watermark stops the read. -/
theorem stopped_by_end {position : Position} {record : Record} (reply : Reply)
    (running : reading.run.stopReason = none)
    (kind : reading.run.kind = reading.range.contextKind)
    (decisive : (Step.advance position).isDecisive reading.range = true)
    (offered : (reading.offer? (.advance position)).1 = some record) :
    (reading.conclude record reply).1.run.stopReason ≠ none := by
  obtain ⟨ends, bounded⟩ := ScriptedRead.offer?_decided running decisive
  obtain rfl : record = _ := Option.some.inj (offered.symm.trans ends)
  have undecided := ((RunContext.stopReason_eq_none_iff _).mp running).1
  have completion : reading.run.kind.finishVerdict = some .completed := by
    rw [kind, Range.finishVerdict_contextKind, bounded]
    rfl
  have decided :
      ∃ verdict,
        (reading.conclude (.watermark ⟨reading.range.id, position, .ending⟩) reply).1.run.verdict =
      some verdict := by
    rw [Reading.conclude_eq, undecided, Option.none_or]
    cases reply.refusal with
    | none => exact ⟨.completed, completion⟩
    | some error => exact ⟨.failed, rfl⟩
  obtain ⟨verdict, given⟩ := decided
  rw [RunContext.stopReason_of_verdict _ given]
  nofun

/-- The two executions stay together until the end, which a decisive step brings about. -/
theorem together_taking (running : reading.run.stopReason = none)
    (kind : reading.run.kind = reading.range.contextKind)
    (generated : script.Generated observes g total)
    (decisive : ∃ step ∈ (script.unrolled g total).steps, step.isDecisive reading.range = true) :
    Together observes g total outlet (between reading run .taking) script sink := by
  generalize ahead : (script.unrolled g total).steps = steps at decisive
  induction steps generalizing reading script sink with
  | nil => simp at decisive
  | cons step rest ih =>
    -- A read that a step has not ended goes on with the rest, where the decisive step is.
    have goesOn (undecided : step.isDecisive reading.range = false) {next : Reading}
        {after : Script} (state : κ)
        (range : next.range = reading.range) (same : next.run.kind = reading.run.kind)
        (left : (after.unrolled g total).steps = rest) (followed : after.Generated observes g total)
        (running : next.run.stopReason = none) :
        (after.unrolled g total).steps ≠ [] ∧
          Together observes g total outlet (between next run .taking) after state := by
      have later : ∃ step ∈ rest, step.isDecisive next.range = true := by
        rw [range]
        simpa [undecided] using decisive
      refine ⟨?_, ih running (by rw [same, kind, range]) followed left later⟩
      obtain ⟨step, listed, -⟩ := later
      rw [left]
      exact List.ne_nil_of_mem listed
    have looksOn (undecided : step.isDecisive reading.range = false) {after : Script}
        (left : (after.unrolled g total).steps = rest)
        (followed : after.Generated observes g total) :
        Together observes g total outlet (between reading run .looking) after sink := by
      obtain ⟨more, further⟩ := goesOn undecided sink rfl rfl left followed running
      exact .looking running followed more further
    cases step with
    | fail reason =>
      exact .taking running generated ahead rfl fun _ followed took _ =>
        .atEnd (.inl rfl) followed took
    | panic message =>
      exact .taking running generated ahead rfl fun _ followed took _ =>
        .atEnd (.inl rfl) followed took
    | stall =>
      exact .taking running generated ahead rfl fun _ followed _ left =>
        (goesOn rfl sink rfl rfl left followed running).2
    | idle =>
      exact .taking running generated ahead rfl fun _ followed _ left => looksOn rfl left followed
    | change event =>
      refine .taking running generated ahead (Trace.roundsTaken_ofLogs _)
        fun after followed took left =>
          .signalled followed took (fun _ => looksOn rfl left followed) ?_
      intro record reply state _
      have concluded := reading.conclude_eq record reply
      exact .answered followed took
        (goesOn rfl state (by rw [concluded]) (by rw [concluded]) left followed)
    | advance position =>
      refine .taking running generated ahead (Trace.roundsTaken_ofLogs _)
        fun after followed took left => ?_
      cases decides : (Step.advance position).isDecisive reading.range with
      | true =>
        apply Together.signalled followed took
        · intro silent
          rw [(ScriptedRead.offer?_decided running decides).1] at silent
          cases silent
        · intro record reply state offered
          exact .answered followed took fun goes =>
            absurd goes (stopped_by_end reply running kind decides offered)
      | false =>
        apply Together.signalled followed took (fun _ => looksOn decides left followed)
        intro record reply state offered
        rw [ScriptedRead.offer?_undecided decides] at offered
        cases offered

/-! ## Whole reads -/

/-- The course of a fresh task that is executed with a script and that nobody closes,
after some steps. -/
def reads (outlet : Outlet κ) (range : Range) (source : Source) (pollInterval : Duration)
    (script : Script) (sink : κ) (steps : Nat) : Course Script ScriptRun κ :=
  (Course.start (.create range) ⟨script, sink⟩).takeAll
    ⟨scriptedEngine, outlet, source, pollInterval⟩
    (List.replicate steps .step)

theorem reads_of_result {range : Range} {source : Source} {pollInterval : Duration}
    {result : TaskResult} {steps more : Nat}
    (exited : (reads outlet range source pollInterval script sink steps).run.result? = some result)
    (enough : steps ≤ more) :
    reads outlet range source pollInterval script sink more =
      reads outlet range source pollInterval script sink steps := by
  obtain ⟨further, rfl⟩ := Nat.exists_eq_add_of_le enough
  have split : reads outlet range source pollInterval script sink (steps + further) =
      (reads outlet range source pollInterval script sink steps).takeAll
        ⟨scriptedEngine, outlet, source, pollInterval⟩
        (List.replicate further .step) := by
    rw [reads, reads, ← Course.takeAll_append, List.replicate_append_replicate]
  rw [split, Course.takeAll_of_result exited]

/-- The task calls the engine, and from there on it is left to itself. What else becomes of it
depends on the execution at its end. -/
theorem reads_to_end {range : Range} {source : Source} {pollInterval : Duration}
    {last : Execution ScriptRun} {state : κ} (ended : last.AtEnd outlet state) :
    ∃ (run : TaskRun ScriptRun) (before after : Trace), before.roundsTaken = [] ∧
      after.roundsTaken = [] ∧
      ((∀ state record, (outlet state record).isSome = true) →
        ∃ result, run.result? = some result) ∧
      ∀ (script left : Script) (seen : Trace),
        Goes scriptedEngine outlet
          (between ((FetchTask.create range).reading pollInterval)
            ⟨source, range.start, .entering⟩ .entering)
          ⟨script.called range, sink⟩ seen last ⟨left, state⟩ →
        ∃ count, ∀ steps, count ≤ steps →
          let course := reads outlet range source pollInterval script sink steps
          course.run = run ∧ course.shared = ⟨left, state⟩ ∧
            course.trace = before ++ seen ++ after := by
  let context : TaskContext Script ScriptRun κ := ⟨scriptedEngine, outlet, source, pollInterval⟩
  let reading := (FetchTask.create range).reading pollInterval
  obtain ⟨run, events, exits, alike⟩ := Course.ends_alike context ended
  refine ⟨run,
    [.logged (.readStarted range),
      .entered ⟨reading.run.kind, pollInterval, source, range.start⟩ reading.status],
    .ofLogs events, rfl, Trace.roundsTaken_ofLogs events, exits, ?_⟩
  intro script left seen goes
  let entered : Course Script ScriptRun κ :=
    (Course.start (.create range) ⟨script, sink⟩).take context .step
  have work : Goes context.engine context.outlet _ _ _ _ _ := goes
  obtain ⟨count, running, shared, trace⟩ := work.takeAll entered rfl rfl
  refine ⟨1 + (count + 2), fun steps enough => ?_⟩
  obtain ⟨more, rfl⟩ := Nat.exists_eq_add_of_le enough
  obtain ⟨ended, kept, traced⟩ :=
    alike _ running (congrArg Shared.sink shared) (2 + more) (Nat.le_add_right 2 more)
  have split : reads outlet range source pollInterval script sink (1 + (count + 2) + more) =
      (entered.takeAll context (List.replicate count .step)).takeAll context
        (List.replicate (2 + more) .step) := by
    have total : 1 + (count + 2) + more = count + (2 + more) + 1 := by omega
    rw [reads, total, List.replicate_succ, Course.takeAll_cons, ← List.replicate_append_replicate,
      Course.takeAll_append]
  rw [split]
  exact ⟨ended, kept.trans shared, by rw [traced, trace]; rfl⟩

/-- The engine is called, and the two executions are together until the end. -/
theorem Together.entering (running : reading.run.stopReason = none)
    (generated : script.Generated observes g total) (more : (script.unrolled g total).steps ≠ [])
    (rest : Together observes g total outlet (between reading run .taking) script sink) :
    Together observes g total outlet (between reading run .entering) script sink :=
  move rfl rfl rfl rfl rfl rfl (looking running generated more rest)

theorem unrolled_generatingWith (observes : Bool) (g : Nat → List Step) (total : Nat) :
    (Script.generatingWith observes g).unrolled g total =
      Script.ofSteps ((List.range total).flatMap g) := by
  simp [Script.unrolled, Script.generatingWith, Script.ofSteps, Script.fresh, List.range_eq_range']

/-- A script of generated rounds, looking around or not, is read like the same steps
in one piece. -/
theorem reads_unrolled (observes : Bool) (g : Nat → List Step) (total : Nat) (range : Range)
    (outlet : Outlet κ) (sink : κ) (source : Source) (pollInterval : Duration)
    (decisive : ∃ step ∈ (List.range total).flatMap g, step.isDecisive range = true) :
    ∃ (left : Script) (step : Step) (count : Nat), left.Generated observes g total ∧
      left.Took g step ∧
      ∀ steps, count ≤ steps →
        let flat := reads outlet range source pollInterval
          (.ofSteps ((List.range total).flatMap g)) sink steps
        let generated :=
          reads outlet range source pollInterval (.generatingWith observes g) sink steps
        ((∀ state record, (outlet state record).isSome = true) →
          ∃ result, flat.run.result? = some result) ∧
          generated.run = flat.run ∧ generated.shared.sink = flat.shared.sink ∧
          generated.shared.engine = left ∧ flat.shared.engine = left.unrolled g total ∧
          generated.trace.withoutRounds = flat.trace ∧
          generated.trace.roundsTaken = if observes then List.range left.round else [] := by
  let fresh := Script.generatingWith observes g
  have unrolled : (fresh.called range).unrolled g total =
      (Script.ofSteps ((List.range total).flatMap g)).called range :=
    congrArg (Script.called · range) (unrolled_generatingWith observes g total)
  have generated : (fresh.called range).Generated observes g total :=
    ⟨rfl, Nat.zero_le total, (absurd rfl ·)⟩
  have ahead : ((fresh.called range).unrolled g total).steps = (List.range total).flatMap g :=
    congrArg Script.steps unrolled
  have more : ((fresh.called range).unrolled g total).steps ≠ [] := by
    obtain ⟨step, listed, -⟩ := decisive
    rw [ahead]
    exact List.ne_nil_of_mem listed
  rw [← ahead] at decisive
  let reading := (FetchTask.create range).reading pollInterval
  have together :
      Together observes g total outlet (between reading ⟨source, range.start, .entering⟩ .entering)
      (fresh.called range) sink :=
    .entering rfl generated more (together_taking rfl rfl generated decisive)
  obtain ⟨last, trace, seen, left, state, step, goes, goes', same, opens, ended, followed, took⟩ :=
    together
  rw [unrolled] at goes
  obtain ⟨run, before, after, quiet, quiet', exits, ends⟩ := reads_to_end ended
  obtain ⟨count, flat⟩ := ends _ _ _ goes
  obtain ⟨count', generating⟩ := ends _ _ _ goes'
  refine ⟨left, step, max count count', followed, took, fun steps enough => ?_⟩
  obtain ⟨flatRun, flatShared, flatTrace⟩ := flat steps (Nat.le_trans (Nat.le_max_left _ _) enough)
  obtain ⟨genRun, genShared, genTrace⟩ :=
    generating steps (Nat.le_trans (Nat.le_max_right _ _) enough)
  refine ⟨?_, ?_, ?_, ?_, ?_, ?_, ?_⟩
  · rw [flatRun]
    exact exits
  · rw [genRun, flatRun]
  · rw [genShared, flatShared]
  · rw [genShared]
  · rw [flatShared]
  · rw [genTrace, flatTrace, Trace.withoutRounds_append, Trace.withoutRounds_append, same,
      Trace.withoutRounds_of_no_rounds quiet, Trace.withoutRounds_of_no_rounds quiet']
  · rw [genTrace, Trace.roundsTaken_append, Trace.roundsTaken_append, quiet, quiet', opens.rounds,
      List.append_nil, List.nil_append, List.range_eq_range']
    rfl

/-- The step that was taken last says how many rounds have been opened. -/
theorem round_le_of_unrolled {first second : Script} (took : second.Took g step)
    (within : second.round ≤ total)
    (same : (first.unrolled g total).steps = (second.unrolled g total).steps) :
    second.round ≤ first.round := by
  obtain ⟨k, before, round, held⟩ := took
  -- Otherwise the first has all of a round left that the second has taken a step of.
  apply Nat.le_of_not_lt
  intro fewer
  have parts : List.range' first.round (total - first.round) =
      List.range' first.round (k - first.round) ++
        k :: List.range' second.round (total - second.round) := by
    have left : total - k = total - (k + 1) + 1 := by omega
    rw [range'_split (show first.round ≤ k by omega) (show k ≤ total by omega), left,
      List.range'_succ, round]
  have lengths := congrArg List.length same
  simp only [Script.unrolled, parts, List.flatMap_append, List.flatMap_cons, held,
    List.length_append, List.length_cons]
    at lengths
  omega

/-- A fresh task that nobody closes is executed with a script of generated rounds. If the first
rounds have a step that ends the read, it goes the way of the same task with the steps of these
rounds in one piece: the same can be seen of it, and it ends alike, at the latest when the sink has
no room. The engine opens the rounds in order, each once, as it shows if it looks around, up to the
round of the step that it takes last. The steps after that one are left, and the rounds after that
round are not opened. -/
theorem reads_like_unrolled (g : Nat → List Step) (m : Nat) (range : Range) (outlet : Outlet κ)
    (sink : κ) (source : Source) (pollInterval : Duration)
    (decisive : ∃ step ∈ (List.range (m + 1)).flatMap g, step.isDecisive range = true) :
    ∃ (k : Nat) (before : List Step) (step : Step) (rest : List Step) (count : Nat),
      k ≤ m ∧ g k = before ++ step :: rest ∧ ∀ steps, count ≤ steps →
        let flat := reads outlet range source pollInterval
          (.ofSteps ((List.range (m + 1)).flatMap g)) sink steps
        let generated := reads outlet range source pollInterval (.generating g) sink steps
        let watched := reads outlet range source pollInterval (.generatingWith true g) sink steps
        ((∀ state record, (outlet state record).isSome = true) →
          ∃ result, flat.run.result? = some result) ∧
          generated.run = flat.run ∧ generated.trace = flat.trace ∧
            generated.shared.sink = flat.shared.sink ∧
          generated.shared.engine.advances = flat.shared.engine.advances ∧
          generated.shared.engine.stalls = flat.shared.engine.stalls ∧
          flat.shared.engine.steps = rest ++ (List.range' (k + 1) (m - k)).flatMap g ∧
          generated.shared.engine.steps = rest ∧ generated.shared.engine.round = k + 1 ∧
          generated.shared.engine.rounds = (Script.generating g).rounds ∧
          watched.run = generated.run ∧ watched.trace.withoutRounds = generated.trace ∧
          watched.trace.roundsTaken = List.range (k + 1) := by
  obtain ⟨left, step, count, followed, took, alike⟩ :=
    reads_unrolled false g (m + 1) range outlet sink source pollInterval decisive
  obtain ⟨seen, _, count', followed', took', alike'⟩ :=
    reads_unrolled true g (m + 1) range outlet sink source pollInterval decisive
  obtain ⟨k, before, round, held⟩ := id took
  have within : k + 1 ≤ m + 1 := round ▸ followed.round_le
  refine ⟨k, before, step, left.steps, max count count', Nat.le_of_succ_le_succ within, held,
    fun steps enough => ?_⟩
  obtain ⟨room, run, sink, engine, flatEngine, trace, rounds⟩ :=
    alike steps (Nat.le_trans (Nat.le_max_left _ _) enough)
  obtain ⟨-, run', -, -, flatEngine', trace', rounds'⟩ :=
    alike' steps (Nat.le_trans (Nat.le_max_right _ _) enough)
  intro flat generated watched
  have trace : generated.trace = flat.trace :=
    (Trace.withoutRounds_of_no_rounds rounds).symm.trans trace
  have same : (left.unrolled g (m + 1)).steps = (seen.unrolled g (m + 1)).steps :=
    congrArg Script.steps (flatEngine.symm.trans flatEngine')
  have seenRound : seen.round = k + 1 :=
    round ▸ Nat.le_antisymm (round_le_of_unrolled took' followed'.round_le same)
      (round_le_of_unrolled took followed.round_le same.symm)
  refine ⟨room, run, trace, sink, ?_, ?_, ?_, ?_, ?_, ?_, run'.trans run.symm,
    trace'.trans trace.symm, ?_⟩
  · exact (congrArg Script.advances engine).trans (congrArg Script.advances flatEngine).symm
  · exact (congrArg Script.stalls engine).trans (congrArg Script.stalls flatEngine).symm
  · rw [show flat.shared.engine = _ from flatEngine, Script.unrolled, round, Nat.add_sub_add_right]
  · exact congrArg Script.steps engine
  · exact (congrArg Script.round engine).trans round
  · exact (congrArg Script.rounds engine).trans followed.rounds_eq
  · rw [show watched.trace.roundsTaken = _ from rounds', seenRound]
    rfl

/-- Rounds without steps and with nothing but stalls come first. The read ends within the round
after them, and the rest of that round is left. -/
theorem ends_within_round_three :
    let g : Nat → List Step
      | 0 => []
      | 1 => [.stall, .change (Sample.insert "ORDERS" 110)]
      | 2 => [.stall]
      | 3 => [.idle, .advance (Sample.scn 250), .change (Sample.insert "ORDERS" 260), .stall]
      | _ => [.fail "ORA-01013"]
    let read := reads (Sink.outlet Recorder.sink) Sample.split (.named "ORCLCDB") (.ofMillis 1)
    (∃ step ∈ (List.range 6).flatMap g, step.isDecisive Sample.split = true) ∧
      ∃ count, ∀ steps, count ≤ steps →
        let generated := read (.generating g) .fresh steps
        generated.run.result? = some .ok ∧
          generated.trace = (read (.ofSteps ((List.range 6).flatMap g)) .fresh steps).trace ∧
          generated.shared.engine.steps = [.change (Sample.insert "ORDERS" 260), .stall] ∧
          (read (.generatingWith true g) .fresh steps).trace.roundsTaken = [0, 1, 2, 3] := by
  intro g read
  have decisive : ∃ step ∈ (List.range 6).flatMap g, step.isDecisive Sample.split = true :=
    ⟨.advance (Sample.scn 250), by decide, by decide⟩
  obtain ⟨k, before, step, rest, count, -, -, alike⟩ :=
    reads_like_unrolled g 5 Sample.split (Sink.outlet Recorder.sink) .fresh (.named "ORCLCDB")
      (.ofMillis 1) decisive
  have exited : (read (.generating g) .fresh 30).run.result? = some .ok := by decide
  refine ⟨decisive, max count 30, fun steps enough => ?_⟩
  obtain ⟨-, -, same, -, -, -, -, left, round, -, -, -, rounds⟩ :=
    alike steps (Nat.le_trans (Nat.le_max_left _ _) enough)
  have final : read (.generating g) .fresh steps = read (.generating g) .fresh 30 :=
    reads_of_result exited (Nat.le_trans (Nat.le_max_right _ _) enough)
  intro generated
  have four : generated.shared.engine.round = 4 := by
    rw [show generated = _ from final]
    decide
  obtain rfl : 3 = k := Nat.succ.inj (four.symm.trans round)
  refine ⟨?_, same, ?_, rounds⟩
  · rw [show generated = _ from final]
    exact exited
  · rw [show generated = _ from final]
    decide

end GeneratedRead

end ChangeStream
