/-!
# How reads stop and tasks live

A read stops for one of three reasons. A task goes through states, of which three are terminal; a
close that comes while the task runs is only noted, and settled when the read has ended.
-/

namespace ChangeStream

/-- Why a read stopped. -/
inductive StopReason
  /-- The owner cleared its running flag. -/
  | closed
  | completed
  | failed
deriving DecidableEq

/-- The state of a task. -/
inductive TaskState
  | created
  | running
  /-- A close was asked for while the task ran. -/
  | closing
  | completed
  | closed
  | failed
deriving DecidableEq

/-- The name of a reason. -/
def StopReason.name : StopReason → String
  | closed => "Closed"
  | completed => "Completed"
  | failed => "Failed"

namespace TaskState

/-- The name of a state. -/
def name : TaskState → String
  | created => "Created"
  | running => "Running"
  | closing => "Closing"
  | completed => "Completed"
  | closed => "Closed"
  | failed => "Failed"

/-- Whether a task in this state has ended. -/
def isTerminal : TaskState → Bool
  | created | running | closing => false
  | completed | closed | failed => true

/-- The state after a close: a task that was never executed is closed for good, a running
one is closing. -/
def afterClose : TaskState → TaskState
  | created => closed
  | running => closing
  | state => state

end TaskState

end ChangeStream
