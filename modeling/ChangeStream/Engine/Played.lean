import ChangeStream.Engine.Basic

/-!
# Engines that play a list of moves

A played engine makes the moves of a list in each of its executions and then returns. It does
not look at the run context by itself, but the list may ask it to: it then returns if the
read has stopped.
-/

namespace ChangeStream

/-- An entry of the list. -/
inductive PlayedMove
  | move (move : Move)
  /-- Return if the read has stopped. -/
  | poll

/-- The engine that plays a list. Nothing of it lasts. -/
def playedEngine (moves : List PlayedMove) : LogEngine Unit (List PlayedMove) where
  start _ _ := (moves, ())
  next stopped rest _ :=
    match rest with
    | [] => (.leave .returned, [], ())
    | .move move :: rest => (move, rest, ())
    | .poll :: rest => if stopped.isSome then (.leave .returned, rest, ()) else (.idle, rest, ())

end ChangeStream
