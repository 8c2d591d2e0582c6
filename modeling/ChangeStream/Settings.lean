import ChangeStream.Duration

/-!
# Settings of a fetch

How long an engine may wait before it looks at the run context again, how many records may queue up,
and how the threads are called.
-/

namespace ChangeStream

/-- Settings of fetch tasks and of the fetcher. -/
structure FetchSettings where
  pollInterval : Duration
  /-- How many records the queue of the fetcher holds; any number if absent. -/
  queueCapacity : Option Nat
  /-- What the name of a fetch thread begins with. -/
  threadLabel : String
deriving DecidableEq

namespace FetchSettings

/-- A poll interval of a tenth of a second, an unbounded queue and a plain label. -/
def standard : FetchSettings :=
  { pollInterval := .ofMillis 100, queueCapacity := none, threadLabel := "cdc-fetch" }

/-- The settings with another poll interval. -/
def withPollInterval (config : FetchSettings) (interval : Duration) : FetchSettings :=
  { config with pollInterval := interval }

/-- The settings with a queue of the given capacity. -/
def withQueueCapacity (config : FetchSettings) (capacity : Nat) : FetchSettings :=
  { config with queueCapacity := some capacity }

/-- The settings with a queue of any length. -/
def withUnboundedQueue (config : FetchSettings) : FetchSettings :=
  { config with queueCapacity := none }

/-- The settings with another label. -/
def withThreadLabel (config : FetchSettings) (label : String) : FetchSettings :=
  { config with threadLabel := label }

/-- The standard settings but for the poll interval and the queue. -/
def ofQueue (interval : Duration) (capacity : Option Nat) : FetchSettings :=
  { standard with pollInterval := interval, queueCapacity := capacity }

end FetchSettings

end ChangeStream
