import ChangeStream.Json.Basic
import ChangeStream.Number.Shortest

/-!
# Writing JSON text

JSON is written without blanks. In strings a quote, a backslash and the characters below the space
are escaped, the common ones by a letter and the others by their number; all else stands as it is.
-/

namespace ChangeStream.Json

/-- A hexadecimal digit in lower case. -/
def hexDigit (n : Nat) : Char :=
  Char.ofNat (if n < 10 then '0'.toNat + n else 'a'.toNat + (n - 10))

/-- How a character is written in a string. -/
def escape (c : Char) : List Char :=
  if c = '"' then ['\\', '"']
  else if c = '\\' then ['\\', '\\']
  else if c = '\x08' then ['\\', 'b']
  else if c = '\x0c' then ['\\', 'f']
  else if c = '\n' then ['\\', 'n']
  else if c = '\r' then ['\\', 'r']
  else if c = '\t' then ['\\', 't']
  else if c < ' ' then ['\\', 'u', '0', '0', hexDigit (c.toNat / 16), hexDigit (c.toNat % 16)]
  else [c]

/-- A text as a JSON string. -/
def stringText (s : String) : List Char :=
  '"' :: s.toList.flatMap escape ++ ['"']

/-- A number as JSON. -/
def numberText : Number → List Char
  | .natural n => (Nat.repr n).toList
  | .negative n => '-' :: (Nat.repr n).toList
  | .float x => x.text.toList

mutual

/-- The characters of a tree. What denotes nothing is written as null. -/
def characters : Json → List Char
  | .null => ['n', 'u', 'l', 'l']
  | .bool true => ['t', 'r', 'u', 'e']
  | .bool false => ['f', 'a', 'l', 's', 'e']
  | .number n => numberText n
  | .string s => stringText s
  | .array items => '[' :: itemCharacters items ++ [']']
  | .object members => '\x7b' :: memberCharacters members ++ ['\x7d']
  | .meaningless => ['n', 'u', 'l', 'l']

/-- The items of an array, separated by commas. -/
def itemCharacters : List Json → List Char
  | [] => []
  | [item] => characters item
  | item :: rest => characters item ++ ',' :: itemCharacters rest

/-- The members of an object, separated by commas. -/
def memberCharacters : List (String × Json) → List Char
  | [] => []
  | [(key, item)] => stringText key ++ ':' :: characters item
  | (key, item) :: rest => stringText key ++ ':' :: characters item ++ ',' :: memberCharacters rest

end

/-- The text of a tree. -/
def text (j : Json) : String := String.ofList (characters j)

end ChangeStream.Json
