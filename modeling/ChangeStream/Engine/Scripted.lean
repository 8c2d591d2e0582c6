import ChangeStream.Engine.Basic

/-!
# Engines that follow a script

A scripted engine takes the steps of its script one by one, looking at the run context before each.
Steps that are not taken stay for the next execution. When no step is left the engine takes the next
round, if its script has rounds: their steps then follow, and something may happen as a round
begins. A script without further rounds makes the engine idle.

A stall blocks: the step after it is taken without a look at the run context.
-/

namespace ChangeStream

/-- One step of a script. -/
inductive Step
  | change (event : Change)
  | advance (position : Position)
  | fail (reason : String)
  | idle
  /-- The engine blocks for a while. -/
  | stall
  | panic (message : String)
deriving DecidableEq

/-- A round of a script. -/
structure Round where
  /-- Whether the round waits until it is released. -/
  gated : Bool
  /-- Whether the engine looks around as the round begins. -/
  observes : Bool
  closes : Bool
  steps : List Step
deriving DecidableEq

/-- The round of some steps and nothing else. -/
def Round.ofSteps (steps : List Step) : Round :=
  { gated := false, observes := false, closes := false, steps }

/-- A script and how far it has been followed. -/
structure Script where
  steps : List Step
  rounds : Nat → Option Round
  round : Nat
  /-- How many gated rounds are released in advance. -/
  releases : Nat
  /-- Whether all gated rounds are released. -/
  gatesOpen : Bool
  executions : Nat
  advances : Nat
  stalls : Nat
  starts : List Position

namespace Script

/-- A script of steps and rounds that nobody has followed yet. -/
def fresh (steps : List Step) (rounds : Nat → Option Round) : Script :=
  { steps, rounds, round := 0, releases := 0, gatesOpen := false, executions := 0,
    advances := 0, stalls := 0,
    starts := [] }

/-- A script of steps alone. -/
def ofSteps (steps : List Step) : Script := fresh steps fun _ => none

/-- A script of rounds of steps without end. -/
def generating (rounds : Nat → List Step) : Script := fresh [] fun n => some (.ofSteps (rounds n))

/-- The rounds of a list. -/
def listed (rounds : List Round) : Nat → Option Round := fun n => rounds[n]?

/-- The first rounds of an endless sequence, as many as are given. -/
def first (count : Nat) (rounds : Nat → Round) : Nat → Option Round := fun n =>
  if n < count then some (rounds n) else none

/-- The given rounds, and after the last one rounds that only close the read. -/
def thenClosing (rounds : Nat → Option Round) : Nat → Option Round := fun n =>
  some ((rounds n).getD { gated := false, observes := false, closes := true, steps := [] })

/-- Adds steps at the end. -/
def push (script : Script) (steps : List Step) : Script :=
  { script with steps := script.steps ++ steps }

/-- Releases one gated round. -/
def release (script : Script) : Script := { script with releases := script.releases + 1 }

/-- Releases all gated rounds. -/
def releaseAll (script : Script) : Script := { script with gatesOpen := true }

/-- Whether neither steps nor rounds are left. -/
def isUsedUp (script : Script) : Bool :=
  script.steps.isEmpty && (script.rounds script.round).isNone

end Script

/-- Where a scripted engine is in an execution. -/
inductive ScriptPhase
  | entering
  | looking
  | taking
  /-- A round begins; what has happened is taken out of it. -/
  | opening (round : Round)
  /-- It has found the read stopped. -/
  | leaving
deriving DecidableEq

/-- An execution of a scripted engine. -/
structure ScriptRun where
  source : Source
  start : Position
  phase : ScriptPhase
deriving DecidableEq

namespace ScriptRun

/-- The run in another phase. -/
def inPhase (run : ScriptRun) (phase : ScriptPhase) : ScriptRun := { run with phase }

/-- Takes the first step of a script, or idles if there is none. -/
def takeStep (run : ScriptRun) (script : Script) : Move × ScriptRun × Script :=
  match script.steps with
  | [] => (.idle, run.inPhase .looking, script)
  | step :: rest =>
    let script := { script with steps := rest }
    match step with
    | .change event => (.signal (.change event), run.inPhase .looking, script)
    | .advance position =>
      (.signal (.advance position), run.inPhase .looking,
        { script with advances := script.advances + 1 })
    | .fail reason => (.leave (.failed (.failed reason)), run.inPhase .leaving, script)
    | .idle => (.idle, run.inPhase .looking, script)
    | .stall => (.idle, run.inPhase .taking, { script with stalls := script.stalls + 1 })
    | .panic message => (.leave (.panicked message), run.inPhase .leaving, script)

/-- Goes on with a round that begins. -/
def openRound (run : ScriptRun) (script : Script) (round : Round) : Move × ScriptRun × Script :=
  if round.gated then
    let opened := run.inPhase (.opening { round with gated := false })
    if script.gatesOpen then (.idle, opened, script)
    else
      match script.releases with
      | 0 => (.wait, run, script)
      | left + 1 => (.idle, opened, { script with releases := left })
  else if round.observes then
    (.takeRound script.round, run.inPhase (.opening { round with observes := false }), script)
  else if round.closes then
    (.close, run.inPhase (.opening { round with closes := false }), script)
  else
    run.takeStep { script with steps := script.steps ++ round.steps, round := script.round + 1 }

/-- The next move of a scripted engine. -/
def next (stopped : Option StopReason) (run : ScriptRun) (script : Script) :
    Move × ScriptRun × Script :=
  match run.phase with
  | .entering => (.log (.scriptStarted run.source.name run.start), run.inPhase .looking, script)
  | .looking =>
    match stopped with
    | some reason =>
      (.log (.scriptStopped run.source.name (some reason)), run.inPhase .leaving, script)
    | none => if script.isUsedUp then (.wait, run, script) else (.idle, run.inPhase .taking, script)
  | .taking =>
    match script.steps, script.rounds script.round with
    | [], some round => run.openRound script round
    | _, _ => run.takeStep script
  | .opening round => run.openRound script round
  | .leaving => (.leave .returned, run, script)

end ScriptRun

/-- The engine that follows a script. -/
def scriptedEngine : LogEngine Script ScriptRun where
  start call script :=
    ({ source := call.source, start := call.start, phase := .entering },
      { script with executions := script.executions + 1, starts := script.starts ++ [call.start] })
  next := ScriptRun.next

end ChangeStream
