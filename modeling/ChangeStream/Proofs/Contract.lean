import ChangeStream.Engine.Scripted

/-!
# The contract of log engines

An engine may return only after it was told that the read has stopped, and it leaves the verdict to
the read. The contract speaks of the executions of the engine alone: of every sequence of answers to
the question whether the read has stopped. The scripted engine keeps it.
-/

namespace ChangeStream

variable {ε ρ : Type}

/-- Where an engine may be in an execution that it has not left, and whether it was
told of a stop. -/
inductive LogEngine.Reached (engine : LogEngine ε ρ) : Bool → ρ → ε → Prop
  | start (call : EngineCall) (state : ε) :
      Reached engine false (engine.start call state).1 (engine.start call state).2
  | next {told : Bool} {progress : ρ} {state : ε} (reached : Reached engine told progress state)
      (stopped : Option StopReason)
      (stays : ∀ ending, (engine.next stopped progress state).1 ≠ .leave ending) :
      Reached engine (told || stopped.isSome) (engine.next stopped progress state).2.1
        (engine.next stopped progress state).2.2

/-- The engine returns only after it was told that the read has stopped, and never
finishes or fails it. -/
structure LogEngine.KeepsContract (engine : LogEngine ε ρ) : Prop where
  returns {told : Bool} {progress : ρ} {state : ε} {stopped : Option StopReason} :
    engine.Reached told progress state → (engine.next stopped progress state).1 = .leave .returned →
      (told || stopped.isSome) = true
  noFinish {told : Bool} {progress : ρ} {state : ε} (stopped : Option StopReason) :
    engine.Reached told progress state → (engine.next stopped progress state).1 ≠ .finish
  noFail {told : Bool} {progress : ρ} {state : ε} (stopped : Option StopReason) :
    engine.Reached told progress state → (engine.next stopped progress state).1 ≠ .fail

/-- The engine returns only after it was told that the read has stopped. It may finish and fail
the read itself. -/
def LogEngine.ReturnsOnceStopped (engine : LogEngine ε ρ) : Prop :=
  ∀ {told : Bool} {progress : ρ} {state : ε} {stopped : Option StopReason},
    engine.Reached told progress state → (engine.next stopped progress state).1 = .leave .returned →
      (told || stopped.isSome) = true

theorem LogEngine.KeepsContract.returnsOnceStopped {engine : LogEngine ε ρ}
    (keeps : engine.KeepsContract) :
    engine.ReturnsOnceStopped :=
  fun reached returned => keeps.returns reached returned

/-! ## The scripted engine -/

namespace ScriptRun

/-- What a move of a scripted engine that is not about to return says of its next phase. -/
structure Orderly (stopped : Option StopReason) (move : Move) (after : ScriptRun) : Prop where
  leaving : after.phase = .leaving → stopped.isSome = true ∨ ∃ ending, move = .leave ending
  noReturn : move ≠ .leave .returned
  noFinish : move ≠ .finish
  noFail : move ≠ .fail

variable (stopped : Option StopReason) (run : ScriptRun) (script : Script)

theorem takeStep_orderly : Orderly stopped (run.takeStep script).1 (run.takeStep script).2.1 := by
  unfold takeStep
  cases script.steps with
  | nil => exact ⟨nofun, nofun, nofun, nofun⟩
  | cons step rest =>
    cases step with
    | fail reason => exact ⟨fun _ => .inr ⟨_, rfl⟩, nofun, nofun, nofun⟩
    | panic message => exact ⟨fun _ => .inr ⟨_, rfl⟩, nofun, nofun, nofun⟩
    | change | advance | idle | stall => exact ⟨nofun, nofun, nofun, nofun⟩

theorem openRound_orderly {run : ScriptRun} (staying : run.phase ≠ .leaving) (round : Round) :
    Orderly stopped (run.openRound script round).1 (run.openRound script round).2.1 := by
  unfold openRound
  split
  · dsimp only
    split
    · exact ⟨nofun, nofun, nofun, nofun⟩
    · split
      · exact ⟨fun hphase => absurd hphase staying, nofun, nofun, nofun⟩
      · exact ⟨nofun, nofun, nofun, nofun⟩
  · split
    · exact ⟨nofun, nofun, nofun, nofun⟩
    · split
      · exact ⟨nofun, nofun, nofun, nofun⟩
      · exact takeStep_orderly stopped run _

theorem next_orderly {run : ScriptRun} (staying : run.phase ≠ .leaving) :
    Orderly stopped (run.next stopped script).1 (run.next stopped script).2.1 := by
  unfold next
  cases hphase : run.phase with
  | entering => exact ⟨nofun, nofun, nofun, nofun⟩
  | looking =>
    cases stopped with
    | some reason => exact ⟨fun _ => .inl rfl, nofun, nofun, nofun⟩
    | none =>
      dsimp only
      split
      · exact ⟨fun hleaving => absurd hleaving staying, nofun, nofun, nofun⟩
      · exact ⟨nofun, nofun, nofun, nofun⟩
  | taking =>
    dsimp only
    split
    · exact openRound_orderly stopped script staying _
    · exact takeStep_orderly stopped run script
  | opening round => exact openRound_orderly stopped script staying round
  | leaving => exact absurd hphase staying

end ScriptRun

/-- A scripted engine that is about to return was told of a stop. -/
theorem told_of_leaving {told : Bool} {run : ScriptRun} {script : Script}
    (reached : scriptedEngine.Reached told run script)
    (leaving : run.phase = .leaving) : told = true := by
  induction reached with
  | start call state => cases leaving
  | @next told run script reached stopped stays ih =>
    -- Either the run was leaving before, or this move has found the read stopped.
    by_cases hphase : run.phase = .leaving
    · rw [ih hphase, Bool.true_or]
    · rcases (ScriptRun.next_orderly stopped script hphase).leaving leaving
        with hstopped | ⟨ending, hmove⟩
      · rw [hstopped, Bool.or_true]
      · exact absurd hmove (stays ending)

theorem scriptedEngine_keepsContract : scriptedEngine.KeepsContract where
  returns {told run script stopped} reached returned := by
    by_cases hphase : run.phase = .leaving
    · rw [told_of_leaving reached hphase, Bool.true_or]
    · exact absurd returned (ScriptRun.next_orderly stopped script hphase).noReturn
  noFinish {told run script} stopped reached := by
    by_cases hphase : run.phase = .leaving
    · simp [scriptedEngine, ScriptRun.next, hphase]
    · exact (ScriptRun.next_orderly stopped script hphase).noFinish
  noFail {told run script} stopped reached := by
    by_cases hphase : run.phase = .leaving
    · simp [scriptedEngine, ScriptRun.next, hphase]
    · exact (ScriptRun.next_orderly stopped script hphase).noFail

end ChangeStream
