import ChangeStream.Codec.Error
import ChangeStream.Json.Reader

/-!
# Decoders

A decoder takes a JSON tree to a value or says why not. Scalars, lists and dictionaries have
decoders of their own. The decoder of a record is put together from the readers of its fields, and
that of an inductive type from its variants.

A record is read from an object or from a list. In an object the members are visited in order,
fields of other names being passed over, and only then is the first field that is not there
reported; in a list the items stand for the fields in their order.
-/

namespace ChangeStream.Codec

/-- The outcome of decoding. -/
abbrev Decoded (α : Type) := Except DecodeError α

/-- Takes a tree to a value. -/
abbrev Decoder (α : Type) := Json → Decoded α

/-! ## Scalars and collections -/

/-- Reads a text. -/
def text : Decoder String
  | .string s => .ok s
  | j => .error (.mistyped j .text)

/-- Reads an unsigned number of a width. -/
def number (width : Width) : Decoder Nat
  | .number (.natural n) =>
    if n < width.limit then .ok n else .error (.outOfRange (.natural n) (.number width))
  | .number (.negative n) => .error (.outOfRange (.negative n) (.number width))
  | j => .error (.mistyped j (.number width))

/-- Reads a byte. -/
def byte : Decoder UInt8 := fun j => (number .byte j).map UInt8.ofNat

/-- Reads null as nothing and all else as a value. -/
def optional {α : Type} (decode : Decoder α) : Decoder (Option α)
  | .null => .ok none
  | j => (decode j).map some

/-- Reads an array item by item. -/
def list {α : Type} (decode : Decoder α) : Decoder (List α)
  | .array items => items.mapM decode
  | j => .error (.mistyped j .sequence)

/-- Reads an object with texts as values; of the members with one key the last stands. -/
def dictionary : Decoder (Dictionary String)
  | .object members =>
    (members.mapM fun member : String × Json => (text member.2).map (member.1, ·)).map
      Dictionary.ofList
  | j => .error (.mistyped j .map)

/-! ## Records -/

/-- The fields that a record is built from, and what it means that one is not among them. -/
structure Given where
  values : List (String × Json)
  absent : String → DecodeError

/-- The readers of the fields of a record, in the order of declaration, and the value
built from them. -/
structure Fields (α : Type) where
  readers : List (String × (Json → Decoded Unit))
  build : Given → Decoded α

namespace Fields

/-- The names of the fields. -/
def names {α : Type} (fields : Fields α) : List String := fields.readers.map (·.1)

instance : Applicative Fields where
  pure x := ⟨[], fun _ => .ok x⟩
  seq f x :=
    let x := x ()
    { readers := f.readers ++ x.readers
      build := fun given => do
        let g ← f.build given
        let y ← x.build given
        return g y }

/-- Builds another value, which may fail after all fields have been read. -/
def andThen {α β : Type} (fields : Fields α) (finish : α → Decoded β) : Fields β :=
  ⟨fields.readers, fun given => fields.build given >>= finish⟩

end Fields

/-- The reader of a field that has to be there. -/
def field {α : Type} (name : String) (decode : Decoder α) : Fields α where
  readers := [(name, fun j => (decode j).map fun _ => ())]
  build given :=
    match given.values.lookup name with
    | some j => decode j
    | none => .error (given.absent name)

/-- The reader of a field with a value for when it is not there. -/
def fieldOr {α : Type} (name : String) (standard : α) (decode : Decoder α) : Fields α where
  readers := [(name, fun j => (decode j).map fun _ => ())]
  build given :=
    match given.values.lookup name with
    | some j => decode j
    | none => .ok standard

/-- How a record type takes what it does not know and lists that are too short. -/
structure RecordStyle where
  name : String
  refusesUnknown : Bool
  /-- Whether the message on a short list counts the fields. -/
  countsFields : Bool

/-- The style of a record type: fields of other names are passed over, a short list is told the
number of fields. -/
def RecordStyle.lenient (name : String) : RecordStyle := ⟨name, false, true⟩

/-- Visits the members of an object in order: known fields must be readable and come once. -/
def visit {α : Type} (style : RecordStyle) (fields : Fields α) :
    List String → List (String × Json) → Decoded Unit
  | _, [] => .ok ()
  | seen, (name, item) :: rest =>
    match fields.readers.lookup name with
    | none =>
      if style.refusesUnknown then .error (.unknownField name fields.names)
      else visit style fields seen rest
    | some reader =>
      if seen.contains name then .error (.duplicateField name)
      else do
        reader item
        visit style fields (name :: seen) rest

/-- Reads a record from an object or a list. -/
def record {α : Type} (style : RecordStyle) (fields : Fields α) : Decoder α
  | .object members => do
    visit style fields [] members
    fields.build ⟨members, .missingField⟩
  | .array items => do
    let count := if style.countsFields then some fields.readers.length else none
    let short := DecodeError.tooShort items.length (.record style.name) count
    let x ← fields.build ⟨fields.names.zip items, fun _ => short⟩
    if items.length ≤ fields.readers.length then return x else .error (.tooLong items.length)
  | j => .error (.mistyped j (.record style.name))

/-! ## Variants -/

/-- What a variant holds. -/
inductive Content (α : Type)
  /-- Nothing: the name alone is the value. -/
  | bare (value : α)
  | wrapped (decode : Decoder α)
  | fields (decode : Decoder α)

/-- Reads the content of a variant, or finds that there is none. -/
def Content.read {α : Type} : Content α → Option Json → Decoded α
  | bare x, none => .ok x
  | bare x, some .null => .ok x
  | bare _, some j => .error (.mistyped j .unit)
  | wrapped _, none => .error (.bareVariant .wrappingVariant)
  | wrapped decode, some j => decode j
  | fields _, none => .error (.bareVariant .recordVariant)
  | fields decode, some j => decode j

/-- Reads a value of an inductive type: the name of a variant, or an object with the name as its
only key and the content as its value. -/
def variant {α : Type} (variants : List (String × Content α)) : Decoder α
  | .string name => choose name none
  | .object [(name, content)] => choose name (some content)
  | .object _ => .error .notOneVariant
  | j => .error (.mistyped j .variant)
where
  choose (name : String) (content : Option Json) : Decoded α :=
    match variants.lookup name with
    | some c => c.read content
    | none => .error (.unknownVariant name (variants.map (·.1)))

/-! ## The two ways to a value -/

/-- Reads a value directly from a JSON text, if the text holds one. -/
def ofText? {α : Type} (decode : Decoder α) (s : String) : Option α :=
  (Json.read? s).bind fun j => (decode j).toOption

/-- Reads a value from the JSON value that a tree denotes, if it denotes one. -/
def ofTree? {α : Type} (decode : Decoder α) (tree : Json) : Option (Decoded α) :=
  tree.value?.map decode

end ChangeStream.Codec
