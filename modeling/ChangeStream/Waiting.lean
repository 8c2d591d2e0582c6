import ChangeStream.Duration

/-!
# Waiting for a condition

A wait checks a condition again and again. It ends when the condition holds, or at the first failed
check that comes later than the timeout allows. The checks are numbered from one, and the clock says
how much time has passed, in nanoseconds, when a check has failed.
-/

namespace ChangeStream.Waiting

/-- How a wait ends. -/
inductive Outcome
  /-- The condition held at a check. -/
  | held (check : Nat)
  | timedOut
deriving DecidableEq

/-- The timeout where none is given. -/
def standardTimeout : Duration := { Duration.zero with seconds := 5, seconds_lt := by decide }

/-- The time between two checks where none is given, in nanoseconds. -/
def standardPause : Nat := 1000000

/-- How long a check takes by the steady clock, in nanoseconds. -/
def moment : Nat := 50

/-- A clock by which every check takes a moment and a pause lies between two. -/
def steadyClock (pause : Nat) (check : Nat) : Nat := check * moment + (check - 1) * pause

/-- Waits for at most `checks` further checks, `check` being the next one. -/
def go (condition : Nat → Bool) (clock : Nat → Nat) (timeout : Duration) : Nat → Nat → Outcome
  | 0, _ => .timedOut
  | checks + 1, check =>
    if condition check then .held check
    else if timeout.totalNanos < clock check then .timedOut
    else go condition clock timeout checks (check + 1)

/-- Waits for a condition. By a steady clock the time is over after as many checks as
are allowed for. -/
def await (condition : Nat → Bool) (timeout : Duration) (pause : Nat) : Outcome :=
  go condition (steadyClock pause) timeout (timeout.totalNanos / pause + 3) 1

/-- What is said when the time is over. -/
def timeoutMessage (timeout : Duration) (message : String) : String :=
  "Timeout after " ++ timeout.text ++ ": " ++ message

end ChangeStream.Waiting
