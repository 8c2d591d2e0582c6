import ChangeStream.Position.Basic
import ChangeStream.SplitId

/-!
# Records of the change stream

A reader of the stream gets two kinds of records: changes of rows, as the engine decoded them, and
watermarks, which mark where a split begins or ends.
-/

namespace ChangeStream

/-- What happened to a row. -/
inductive RowOp
  | insert
  | update
  | delete
  /-- The row was found by a snapshot read, not in the log. -/
  | read
deriving DecidableEq

/-- A change of a row. The payload is whatever the engine decoded; nothing here looks into it. -/
structure Change where
  table : String
  op : RowOp
  position : Position
  payload : List UInt8
deriving DecidableEq

/-- Which boundary of a split a watermark marks. -/
inductive WatermarkKind
  /-- The start of a snapshot read of a chunk. -/
  | low
  /-- The end of a snapshot read of a chunk. -/
  | high
  /-- The end of a bounded read of the log. -/
  | ending
deriving DecidableEq

/-- A marker in the stream of a split. -/
structure Watermark where
  split : SplitId
  position : Position
  kind : WatermarkKind
deriving DecidableEq

/-- A record of the change stream. -/
inductive Record
  | change (split : SplitId) (event : Change)
  | watermark (event : Watermark)
deriving DecidableEq

namespace RowOp

/-- The name of an operation. -/
def name : RowOp → String
  | insert => "Insert"
  | update => "Update"
  | delete => "Delete"
  | read => "Read"

end RowOp

namespace WatermarkKind

/-- The name of a kind. -/
def name : WatermarkKind → String
  | low => "Low"
  | high => "High"
  | ending => "End"

/-- How a kind is shown. -/
def text : WatermarkKind → String
  | low => "LOW"
  | high => "HIGH"
  | ending => "END"

end WatermarkKind

namespace Record

/-- The split that a record belongs to. -/
def split : Record → SplitId
  | change split _ => split
  | watermark event => event.split

/-- The position that a record was observed at. -/
def position : Record → Position
  | change _ event => event.position
  | watermark event => event.position

/-- The watermark, of a record that is one. -/
def watermark? : Record → Option Watermark
  | change .. => none
  | watermark event => some event

/-- The change, of a record that is one. -/
def change? : Record → Option Change
  | change _ event => some event
  | watermark _ => none

/-- Whether a record is a watermark. -/
def isWatermark (record : Record) : Bool := record.watermark?.isSome

end Record

end ChangeStream
