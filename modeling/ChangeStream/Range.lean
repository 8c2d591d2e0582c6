import ChangeStream.Error
import ChangeStream.Position.Order

/-!
# Ranges of the change stream

A range is the segment of the stream that one task reads: it has the id of a split, a start, and an
end that is either a position, which belongs to the range, or not there at all. An end that is a
position has reached the start; the constructors refuse anything else.
-/

namespace ChangeStream

/-- Where a range stops. -/
inductive RangeEnd
  | bounded (position : Position)
  /-- Nowhere: the range is read until the task is closed. -/
  | noStopping
deriving DecidableEq

namespace RangeEnd

/-- The position, if there is one. -/
def position? : RangeEnd → Option Position
  | bounded position => some position
  | noStopping => none

/-- The text of the position, or the words for having none. -/
def text : RangeEnd → String
  | bounded position => position.text
  | noStopping => "NO_STOPPING"

/-- Whether a range may go from the start to this end. -/
def Admits (stop : RangeEnd) (start : Position) : Prop :=
  ∀ position, stop = bounded position → position.hasReached start = true

end RangeEnd

/-- A segment of the change stream. -/
structure Range where
  id : SplitId
  start : Position
  stop : RangeEnd
  admits : stop.Admits start
deriving DecidableEq

namespace Range

/-- The range up to a position, which must have reached the start. -/
def bounded (id : SplitId) (start stop : Position) : Except FetchError Range :=
  if h : stop.hasReached start = true then
    .ok ⟨id, start, .bounded stop, fun _ eq => RangeEnd.bounded.inj eq ▸ h⟩
  else .error (.invalidRange id start stop)

/-- The range without an end. -/
def unbounded (id : SplitId) (start : Position) : Range :=
  ⟨id, start, .noStopping, fun _ eq => nomatch eq⟩

/-- The range with the given end, if it has one. -/
def create (id : SplitId) (start : Position) : RangeEnd → Except FetchError Range
  | .bounded stop => bounded id start stop
  | .noStopping => .ok (unbounded id start)

/-- Whether the range has an end. -/
def isBounded (range : Range) : Bool := range.stop.position?.isSome

/-- The id and, between brackets, the start and the end. -/
def text (range : Range) : String :=
  range.id.text ++ "[" ++ range.start.text ++ ".." ++ range.stop.text ++ "]"

end Range

end ChangeStream
