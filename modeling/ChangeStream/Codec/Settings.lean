import ChangeStream.Codec.Decoder
import ChangeStream.Settings

/-!
# Reading settings from JSON

Settings are read over the standard ones: a field that is not there keeps its standard value. A
duration is given by its seconds and nanoseconds; it knows no other fields.
-/

namespace ChangeStream

open Codec

/-- The duration of the parts, whose carry must fit. -/
def Duration.ofDecoded (parts : Nat × Nat) : Decoded Duration :=
  match Duration.ofParts? parts.1 parts.2 with
  | some d => .ok d
  | none => .error .durationOverflow

/-- The fields of a duration. -/
def Duration.fields : Fields Duration :=
  (Prod.mk <$> field "secs" (number .word64) <*> field "nanos" (number .word32)).andThen
    Duration.ofDecoded

/-- Reads a duration. -/
def Duration.ofJson : Decoder Duration := record ⟨"Duration", true, false⟩ Duration.fields

/-- The fields of the settings. -/
def FetchSettings.fields : Fields FetchSettings :=
  FetchSettings.mk
    <$> fieldOr "poll_interval" FetchSettings.standard.pollInterval Duration.ofJson
    <*> fieldOr "queue_capacity" FetchSettings.standard.queueCapacity (optional (number .size))
    <*> fieldOr "thread_name_prefix" FetchSettings.standard.threadLabel text

/-- Reads settings. -/
def FetchSettings.ofJson : Decoder FetchSettings :=
  record (.lenient "FetchConfig") FetchSettings.fields

end ChangeStream
