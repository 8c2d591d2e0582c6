import ChangeStream.Codec.Decoder
import ChangeStream.Range
import ChangeStream.Record
import ChangeStream.Source

/-!
# The JSON forms of positions, records and sources

A split id is a text and a position an object of texts. Records and sources are objects with a
member for each field; operations, watermark kinds and ends of ranges are variants. Each type has a
writer, `toJson`, and a reader, `ofJson`. Readers are more generous than writers: they take fields
in any order and as a list, and pass over fields that they do not know.
-/

namespace ChangeStream

open Codec

/-- Where a tree to be decoded comes from. -/
inductive Codec.Origin
  /-- From a JSON value that was read before. -/
  | value
  /-- Directly from a text; the fields of a variant may then be a list. -/
  | text
deriving DecidableEq

namespace SplitId

/-- Writes a split id. -/
def toJson (id : SplitId) : Json := .string id.text

/-- Reads a split id. -/
def ofJson : Decoder SplitId := fun j => (Codec.text j).map SplitId.mk

end SplitId

/-- Writes a dictionary of texts. -/
def Dictionary.toJson (d : Dictionary String) : Json :=
  .object (d.entries.map fun entry => (entry.1, .string entry.2))

namespace Position

/-- Writes a position. -/
def toJson (p : Position) : Json := p.components.toJson

/-- Reads a position. -/
def ofJson : Decoder Position := fun j => (dictionary j).map Position.mk

end Position

namespace RangeEnd

/-- Writes an end. -/
def toJson : RangeEnd → Json
  | bounded position => .object [("Bounded", position.toJson)]
  | noStopping => .string "NoStopping"

/-- Reads an end. -/
def ofJson : Decoder RangeEnd :=
  variant [
    ("Bounded", .wrapped fun j => (Position.ofJson j).map bounded),
    ("NoStopping", .bare noStopping)]

end RangeEnd

/-- Writes a range. -/
def Range.toJson (range : Range) : Json :=
  .object [("id", range.id.toJson), ("start", range.start.toJson), ("end", range.stop.toJson)]

namespace RowOp

/-- Writes an operation. -/
def toJson (op : RowOp) : Json := .string op.name

/-- Reads an operation. -/
def ofJson : Decoder RowOp :=
  variant ([insert, update, delete, read].map fun op => (op.name, .bare op))

end RowOp

namespace Change

/-- Writes a change. -/
def toJson (event : Change) : Json :=
  .object [
    ("table", .string event.table),
    ("op", event.op.toJson),
    ("position", event.position.toJson),
    ("payload", .array (event.payload.map fun byte => .number (.natural byte.toNat)))]

/-- The fields of a change. -/
def fields : Fields Change :=
  Change.mk <$> field "table" Codec.text <*> field "op" RowOp.ofJson
    <*> field "position" Position.ofJson <*> field "payload" (list byte)

/-- Reads a change. -/
def ofJson : Decoder Change := record (.lenient "ChangeEvent") fields

end Change

namespace WatermarkKind

/-- Writes a kind of watermark. -/
def toJson (kind : WatermarkKind) : Json := .string kind.name

/-- Reads a kind of watermark. -/
def ofJson : Decoder WatermarkKind :=
  variant ([low, high, ending].map fun kind => (kind.name, .bare kind))

end WatermarkKind

namespace Watermark

/-- Writes a watermark. -/
def toJson (event : Watermark) : Json :=
  .object [
    ("split_id", event.split.toJson),
    ("position", event.position.toJson),
    ("kind", event.kind.toJson)]

/-- The fields of a watermark. -/
def fields : Fields Watermark :=
  Watermark.mk <$> field "split_id" SplitId.ofJson <*> field "position" Position.ofJson
    <*> field "kind" WatermarkKind.ofJson

/-- Reads a watermark. -/
def ofJson : Decoder Watermark := record (.lenient "WatermarkEvent") fields

end Watermark

namespace Record

/-- Writes a record. -/
def toJson : Record → Json
  | change split event =>
    .object [("Change", .object [("split_id", split.toJson), ("event", event.toJson)])]
  | watermark event => .object [("Watermark", event.toJson)]

/-- The fields of a change record. -/
def changeFields : Fields Record :=
  change <$> field "split_id" SplitId.ofJson <*> field "event" Change.ofJson

/-- Reads the content of a change record. -/
def changeContent (origin : Origin) : Decoder Record
  | .object members => record (.lenient "Change") changeFields (.object members)
  | .array items =>
    match origin with
    | .text => record (.lenient "Change") changeFields (.array items)
    | .value => .error (.mistyped (.array items) .recordVariant)
  | j => .error (.mistyped j .recordVariant)

/-- Reads a record. -/
def ofJson (origin : Origin) : Decoder Record :=
  variant [
    ("Change", .fields (changeContent origin)),
    ("Watermark", .wrapped fun j => (Watermark.ofJson j).map watermark)]

end Record

namespace Source

/-- Writes a source. -/
def toJson (source : Source) : Json :=
  .object [("name", .string source.name), ("partition", source.partition.toJson)]

/-- The fields of a source. -/
def fields : Fields Source :=
  Source.mk <$> field "name" Codec.text <*> field "partition" dictionary

/-- Reads a source. -/
def ofJson : Decoder Source := record (.lenient "SourceIdentity") fields

end Source

end ChangeStream
