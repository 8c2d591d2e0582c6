import ChangeStream.Record
import ChangeStream.Error

/-!
# Sinks

A sink is handed records and answers: it takes a record or refuses it. Before it answers, the read
that the record comes from may be closed by another party. An outlet is a sink that may have no room
yet; it then does not answer, and the record is handed over again later.
-/

namespace ChangeStream

/-- The answer of a sink. -/
structure Reply where
  /-- Whether the read was closed while the sink had the record. -/
  closes : Bool
  /-- The error, if the sink did not take the record. -/
  refusal : Option DispatchError
deriving DecidableEq

namespace Reply

/-- The record is taken. -/
def accepted : Reply := ⟨false, none⟩

/-- The record is refused. -/
def refused (error : DispatchError) : Reply := ⟨false, some error⟩

end Reply

/-- A sink with a state: its answer to a record and the state after it. -/
abbrev Sink (κ : Type) := κ → Record → Reply × κ

/-- A sink that may have no room yet. -/
abbrev Outlet (κ : Type) := κ → Record → Option (Reply × κ)

/-- A sink always has room. -/
def Sink.outlet {κ : Type} (sink : Sink κ) : Outlet κ :=
  fun state record => some (sink state record)

end ChangeStream
