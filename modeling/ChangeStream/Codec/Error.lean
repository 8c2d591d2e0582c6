import ChangeStream.Json.Printer
import ChangeStream.Text.Quoted

/-!
# Why a JSON tree is not a value of a type

A decode error says what was found and what was wanted instead, or which field, variant or
length is at fault.
-/

namespace ChangeStream.Codec

/-- The width of an unsigned number. -/
inductive Width
  | byte
  | word32
  | word64
  /-- The width of a length in memory. -/
  | size
deriving DecidableEq

namespace Width

/-- The first number that does not fit. -/
def limit : Width → Nat
  | byte => Nat.pow 2 8
  | word32 => Nat.pow 2 32
  | word64 => Nat.pow 2 64
  | size => Nat.pow 2 64

/-- The word for the width. -/
def text : Width → String
  | byte => "u8"
  | word32 => "u32"
  | word64 => "u64"
  | size => "usize"

end Width

/-- What a decoder wants. -/
inductive Expectation
  | text
  | map
  | sequence
  | unit
  | number (width : Width)
  | record (name : String)
  | variant
  /-- A variant whose content is one value. -/
  | wrappingVariant
  /-- A variant whose content is a record. -/
  | recordVariant
deriving DecidableEq

/-- The words for what is wanted. -/
def Expectation.words : Expectation → String
  | .text => "a string"
  | map => "a map"
  | sequence => "a sequence"
  | unit => "unit"
  | number width => width.text
  | record name => "struct " ++ name
  | variant => "string or map"
  | wrappingVariant => "newtype variant"
  | recordVariant => "struct variant"

/-- Why a tree is refused. -/
inductive DecodeError
  | mistyped (found : Json) (expected : Expectation)
  | outOfRange (found : Number) (expected : Expectation)
  /-- A variant stands without the content that it needs. -/
  | bareVariant (expected : Expectation)
  /-- An object names no variant, or more than one. -/
  | notOneVariant
  | unknownVariant (name : String) (known : List String)
  | missingField (name : String)
  | duplicateField (name : String)
  | unknownField (name : String) (known : List String)
  | tooShort (length : Nat) (expected : Expectation) (fields : Option Nat)
  | tooLong (length : Nat)
  | durationOverflow

/-- The words for a number that was found. -/
def numberFound : Number → String
  | .float x => "floating point `" ++ x.text ++ "`"
  | n => "integer `" ++ String.ofList (Json.numberText n) ++ "`"

/-- The words for a tree that was found. -/
def found : Json → String
  | .null => "null"
  | .bool b => "boolean `" ++ (if b then "true" else "false") ++ "`"
  | .number n => numberFound n
  | .string s => "string " ++ Text.quoted s
  | .array _ => "sequence"
  | .object _ => "map"
  | .meaningless => "null"

/-- A list of names as alternatives. -/
def alternatives (names : List String) : String :=
  let quotedNames := names.map fun name => "`" ++ name ++ "`"
  match quotedNames with
  | [a] => a
  | [a, b] => a ++ " or " ++ b
  | all => "one of " ++ ", ".intercalate all

/-- The message of a decode error. -/
def DecodeError.message : DecodeError → String
  | mistyped tree expected => "invalid type: " ++ found tree ++ ", expected " ++ expected.words
  | outOfRange n expected => "invalid value: " ++ numberFound n ++ ", expected " ++ expected.words
  | bareVariant expected => "invalid type: unit variant, expected " ++ expected.words
  | notOneVariant => "invalid value: map, expected map with a single key"
  | unknownVariant name known => "unknown variant `" ++ name ++ "`, expected " ++ alternatives known
  | missingField name => "missing field `" ++ name ++ "`"
  | duplicateField name => "duplicate field `" ++ name ++ "`"
  | unknownField name known => "unknown field `" ++ name ++ "`, expected " ++ alternatives known
  | tooShort length expected fields =>
    "invalid length " ++ Nat.repr length ++ ", expected " ++ expected.words ++
      (match fields with
        | some count => " with " ++ Nat.repr count ++ " elements"
        | none => "")
  | tooLong length => "invalid length " ++ Nat.repr length ++ ", expected fewer elements in array"
  | durationOverflow => "overflow deserializing Duration"

end ChangeStream.Codec
