import ChangeStream.Error
import ChangeStream.Lifecycle

/-!
# Entering a task

A task is executed once. What happens when it is to be executed depends on its state alone.
-/

namespace ChangeStream

/-- What happens when a task is to be executed. -/
inductive Entry
  | enters
  /-- There is nothing to do: the task was closed before. -/
  | closedBefore
  | refused (error : FetchError)
deriving DecidableEq

/-- The entry that a task of a split meets in a state. -/
def TaskState.entry (split : SplitId) : TaskState → Entry
  | created => .enters
  | closed => .closedBefore
  | running | closing | completed | failed => .refused (.alreadyExecuted split)

end ChangeStream
