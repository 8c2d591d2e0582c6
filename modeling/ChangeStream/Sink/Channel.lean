import ChangeStream.Queue
import ChangeStream.Sink.Basic

/-!
# The channel to a downstream reader

Records queue up in the order in which they are dispatched, until the receiver takes them. A
channel with a capacity has no room for more records than that. Once the receiver is gone nothing
is taken any more.
-/

namespace ChangeStream

/-- A queue of records with a receiver. -/
structure Channel where
  /-- How many records may wait; any number if absent. -/
  capacity : Option Nat
  queue : Queue Record
  connected : Bool

namespace Channel

/-- An empty channel. -/
def fresh (capacity : Option Nat) : Channel := { capacity, queue := .empty, connected := true }

/-- The records that wait, the next one to be received first. -/
def records (channel : Channel) : List Record := channel.queue.toList

/-- Whether there is no room. -/
def isFull (channel : Channel) : Bool :=
  match channel.capacity with
  | some capacity => capacity ≤ channel.queue.size
  | none => false

/-- The channel as an outlet. -/
def outlet : Outlet Channel := fun channel record =>
  if !channel.connected then some (.refused .disconnected, channel)
  else if channel.isFull then none
  else some (.accepted, { channel with queue := channel.queue.enqueue record })

/-- Takes the first record out. -/
def receive (channel : Channel) : Option Record × Channel :=
  match channel.queue.dequeue? with
  | none => (none, channel)
  | some (record, queue) => (some record, { channel with queue })

/-- Takes all records out. -/
def drain (channel : Channel) : List Record × Channel :=
  (channel.records, { channel with queue := .empty })

/-- The channel after its receiver is gone. -/
def disconnect (channel : Channel) : Channel :=
  { channel with queue := .empty, connected := false }

end Channel

end ChangeStream
