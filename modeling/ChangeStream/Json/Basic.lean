import ChangeStream.Dictionary
import ChangeStream.Number.Binary64

/-!
# JSON values

A tree of JSON as it was written: an object keeps its members in the order of the text, repeated
keys included. The value that a text denotes is such a tree in which every object is a dictionary,
the last of several members with one key standing; `Json.value?` computes it.
-/

namespace ChangeStream

/-- A number as it was read: whole ones that fit into 64 bits are kept exactly. -/
inductive Number
  | natural (n : Nat)
  /-- The whole number minus `n`. -/
  | negative (n : Nat)
  /-- A number with a fraction, with an exponent or beyond 64 bits. -/
  | float (x : Binary64)
deriving DecidableEq

/-- A JSON tree. -/
inductive Json
  | null
  | bool (value : Bool)
  | number (n : Number)
  | string (s : String)
  | array (items : List Json)
  | object (members : List (String × Json))
  /-- A token that obeys the grammar and denotes nothing: text with half a surrogate pair, a number
  beyond the greatest double, or an object with such a key. -/
  | meaningless

namespace Json

mutual

/-- The value that a tree denotes: in every object the keys are in ascending order, and of the
members with one key the last stands. -/
def value? : Json → Option Json
  | .array items => (valueItems? items).map .array
  | .object members => (valueMembers? members).map fun ms => .object (Dictionary.ofList ms).entries
  | .meaningless => none
  | .null => some .null
  | .bool b => some (.bool b)
  | .number n => some (.number n)
  | .string s => some (.string s)

/-- The values of the items of an array. -/
def valueItems? : List Json → Option (List Json)
  | [] => some []
  | item :: rest => do return (← value? item) :: (← valueItems? rest)

/-- The values of the members of an object, none left out. -/
def valueMembers? : List (String × Json) → Option (List (String × Json))
  | [] => some []
  | (key, item) :: rest => do return (key, ← value? item) :: (← valueMembers? rest)

end

end Json

end ChangeStream
