/-!
# Split ids

A split is the segment of the log that one task reads. Its id is a text; ids are
ordered by code point.
-/

namespace ChangeStream

/-- The id of a split. -/
structure SplitId where
  text : String
deriving DecidableEq

namespace SplitId

/-- Compares two ids. -/
def compare (a b : SplitId) : Ordering := compareOfLessAndEq a.text b.text

/-- The ids in ascending order, equal ones kept. -/
def sort (ids : List SplitId) : List SplitId :=
  ids.mergeSort fun a b => a.text ≤ b.text

end SplitId

end ChangeStream
