import ChangeStream.Reading

/-!
# Log engines

A log engine reads the log on behalf of a read. It is a machine: called for an execution it starts
one, and then, told whether the read has stopped, says move by move what it does next. Between two
moves others may close the read or take records from the sink. An engine has a state that lasts over
its executions, and each execution has one of its own.
-/

namespace ChangeStream

/-- How an engine leaves an execution. -/
inductive Ending
  | returned
  | failed (error : EngineError)
  | panicked (message : String)
deriving DecidableEq

/-- What an engine does next. -/
inductive Move
  | signal (signal : Signal)
  | idle
  /-- It can do nothing until somebody else acts; it will be asked again. -/
  | wait
  | finish
  | fail
  /-- The read is closed at this moment. -/
  | close
  /-- It looks around. -/
  | observe
  | takeRound (round : Nat)
  /-- It executes the task that it was called by. -/
  | executeAgain
  | log (event : LogEvent)
  | leave (ending : Ending)

/-- An engine with a lasting state and a state of each execution. -/
structure LogEngine (ε ρ : Type) where
  start : EngineCall → ε → ρ × ε
  /-- The next move, given why the read has stopped, if it has. -/
  next : Option StopReason → ρ → ε → Move × ρ × ε

end ChangeStream
