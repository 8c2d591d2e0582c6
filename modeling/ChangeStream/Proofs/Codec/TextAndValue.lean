import ChangeStream.Codec.Settings
import ChangeStream.Proofs.Codec.Acceptance
import ChangeStream.Proofs.Codec.Clarity
import ChangeStream.Proofs.Json.Text

/-!
# Reading a text and reading its value

For each type that is read from JSON, which trees are clear, and that a text with a clear tree is
read directly as the value is that it denotes, in whatever order it names the keys. A record of a
change is clear only if its fields stand in an object, since a list is taken for them in a text
and not in a value.
-/

namespace ChangeStream

open Codec

/-! ## Records and their parts -/

theorem SplitId.reads_alike : ReadsAlike ofJson anything :=
  .map .text _

theorem Position.reads_alike : ReadsAlike ofJson clearDictionary :=
  .map .dictionary _

namespace RangeEnd

/-- Trees without ambiguity for an end. -/
def clear : Json → Prop :=
  clearVariant [("Bounded", clearDictionary)]

theorem reads_alike : ReadsAlike ofJson clear := by
  apply ReadsAlike.variant
  simp only [List.forall_mem_cons]
  refine ⟨?bounded, Content.bare_alike _ _, by simp⟩
  case bounded =>
    exact (Position.reads_alike.map bounded).mono fun _ ruled => ruled.clear List.mem_cons_self

end RangeEnd

theorem Codec.bare_reads_alike {α : Type} (name : α → String) (all : List α) :
    ReadsAlike (variant (all.map fun x => (name x, .bare x))) (clearVariant []) := by
  apply ReadsAlike.variant
  intro variant listed
  obtain ⟨x, _, rfl⟩ := List.mem_map.mp listed
  exact Content.bare_alike x _

theorem RowOp.reads_alike : ReadsAlike ofJson (clearVariant []) :=
  bare_reads_alike name _

theorem WatermarkKind.reads_alike : ReadsAlike ofJson (clearVariant []) :=
  bare_reads_alike name _

namespace Change

/-- Trees without ambiguity for a change. -/
def clear : Json → Prop :=
  clearRecord
    [("table", anything), ("op", clearVariant []), ("position", clearDictionary),
      ("payload", anything)]

theorem reads_alike : ReadsAlike ofJson clear := by
  apply ReadsAlike.record
  exact (((Fields.Alike.field .text).map _).seq (.field RowOp.reads_alike)).seq
    (.field Position.reads_alike)
    |>.seq (.field (.list .byte))

end Change

namespace Watermark

/-- Trees without ambiguity for a watermark. -/
def clear : Json → Prop :=
  clearRecord [("split_id", anything), ("position", clearDictionary), ("kind", clearVariant [])]

theorem reads_alike : ReadsAlike ofJson clear := by
  apply ReadsAlike.record
  exact (((Fields.Alike.field SplitId.reads_alike).map _).seq (.field Position.reads_alike)).seq
    (.field WatermarkKind.reads_alike)

end Watermark

namespace Source

/-- Trees without ambiguity for a source. -/
def clear : Json → Prop :=
  clearRecord [("name", anything), ("partition", clearDictionary)]

theorem reads_alike : ReadsAlike ofJson clear := by
  apply ReadsAlike.record
  exact ((Fields.Alike.field .text).map _).seq (.field .dictionary)

end Source

namespace Record

/-- Trees without ambiguity for the content of a change record. -/
def clearChange (j : Json) : Prop :=
  (∀ items, j ≠ .array items) ∧ clearRecord [("split_id", anything), ("event", Change.clear)] j

/-- Trees without ambiguity for a record. -/
def clear : Json → Prop :=
  clearVariant [("Change", clearChange), ("Watermark", Watermark.clear)]

theorem changeContent_alike (origin : Origin) : ReadsAlike (changeContent origin) clearChange where
  alike denoted clear x := by
    have fields : changeFields.Alike [("split_id", anything), ("event", Change.clear)] :=
      ((Fields.Alike.field SplitId.reads_alike).map _).seq (.field Change.reads_alike)
    have read := (ReadsAlike.record fields (.lenient "Change")).alike denoted clear.2 x
    cases Json.denotes_of_value? denoted with
    | same => rfl
    | array each => exact absurd rfl (clear.1 _)
    | object each => exact read

theorem reads_alike (origin : Origin) : ReadsAlike (ofJson origin) clear := by
  apply ReadsAlike.variant
  simp only [List.forall_mem_cons]
  refine ⟨?change, ?watermark, by simp⟩
  case change => exact (changeContent_alike origin).mono fun _ ruled => ruled.clear (by simp)
  case watermark =>
    exact (Watermark.reads_alike.map watermark).mono fun _ ruled => ruled.clear (by simp)

theorem changeContent_origin {j : Json} (clear : clearChange j) :
    changeContent .text j = changeContent .value j := by
  cases j with
  | array items => exact absurd rfl (clear.1 items)
  | _ => rfl

/-- Where no list stands for the fields of a change record, it does not matter where a
tree comes from. -/
theorem ofJson_origin {tree : Json} (clear : clear tree) :
    ofJson .text tree = ofJson .value tree := by
  match tree, clear with
  | .object [(name, content)], ⟨_, ruled⟩ =>
    by_cases hchange : name = "Change"
    · subst hchange
      exact changeContent_origin ((ruled "Change" content (by simp)).clear List.mem_cons_self)
    · simp [ofJson, variant, variant.choose, Dictionary.lookup_cons_ite, hchange]
  | .string name, _ =>
    by_cases hchange : name = "Change"
    · subst hchange
      rfl
    · simp [ofJson, variant, variant.choose, Dictionary.lookup_cons_ite, hchange]
  | .object [], _ | .object (_ :: _ :: _), _ => rfl
  | .null, _ | .bool _, _ | .number _, _ | .array _, _ | .meaningless, _ => rfl

end Record

/-! ## Settings -/

/-- Trees without ambiguity for a duration. -/
def Duration.clear : Json → Prop :=
  clearRecord [("secs", anything), ("nanos", anything)]

theorem Duration.reads_alike : ReadsAlike ofJson clear := by
  apply ReadsAlike.record
  exact (((Fields.Alike.field (.number _)).map _).seq (.field (.number _))).andThen _

/-- Trees without ambiguity for settings. -/
def FetchSettings.clear : Json → Prop :=
  clearRecord
    [("poll_interval", Duration.clear), ("queue_capacity", anything),
      ("thread_name_prefix", anything)]

theorem FetchSettings.reads_alike : ReadsAlike ofJson clear := by
  apply ReadsAlike.record
  exact (((Fields.Alike.fieldOr Duration.reads_alike).map _).seq
    (.fieldOr (.optional (.number _)))).seq
    (.fieldOr .text)

/-! ## All of them -/

namespace Codec

/-- The trees that are clear for a form. -/
def Form.Clear : Form → Json → Prop
  | position => clearDictionary
  | splitId => anything
  | rangeEnd => RangeEnd.clear
  | rowOp | watermarkKind => clearVariant []
  | change => Change.clear
  | watermark => Watermark.clear
  | record => Record.clear
  | source => Source.clear

theorem Form.reads_alike : ∀ form, ReadsAlike (read .value form) form.Clear
  | position => Position.reads_alike
  | splitId => SplitId.reads_alike
  | rangeEnd => RangeEnd.reads_alike
  | rowOp => RowOp.reads_alike
  | watermarkKind => WatermarkKind.reads_alike
  | change => Change.reads_alike
  | watermark => Watermark.reads_alike
  | record => Record.reads_alike .value
  | source => Source.reads_alike

theorem Form.read_origin {tree : Json} :
    ∀ form, form.Clear tree → read .text form tree = read .value form tree
  | record, clear => Record.ofJson_origin clear
  | position, _ | splitId, _ | rangeEnd, _ | rowOp, _ | watermarkKind, _ | change, _
  | watermark, _ | source, _ => rfl

/-- The types that are read from JSON: those that are written too, and the settings. -/
inductive Readable
  | written (form : Form)
  | settings

namespace Readable

/-- What is read. -/
def Carrier : Readable → Type
  | written form => form.Carrier
  | settings => FetchSettings

/-- The reader of a type. -/
def read (origin : Origin) : (type : Readable) → Decoder type.Carrier
  | written form => form.read origin
  | settings => FetchSettings.ofJson

/-- The trees that are clear for a type. -/
def Clear : Readable → Json → Prop
  | written form => form.Clear
  | settings => FetchSettings.clear

theorem read_text_iff (type : Readable) {tree v : Json} (denoted : tree.value? = some v)
    (clear : type.Clear tree) (x : type.Carrier) :
    type.read .text tree = .ok x ↔ type.read .value v = .ok x := by
  cases type with
  | written form =>
    rw [read, form.read_origin clear]
    exact form.reads_alike.alike denoted clear x
  | settings => exact FetchSettings.reads_alike.alike denoted clear x

/-- A text is read directly for just what its value is read for. -/
theorem text_read_as_its_value (type : Readable) {s : String} {tree v : Json}
    (parsed : Json.read? s = some tree) (denoted : tree.value? = some v) (clear : type.Clear tree)
    (x : type.Carrier) :
    ofText? (type.read .text) s = some x ↔ type.read .value v = .ok x := by
  rw [ofText?, parsed, Option.bind_some, ← type.read_text_iff denoted clear]
  cases type.read .text tree <;> simp [Except.toOption]

/-- Fields in another order, an unknown one with a repeated key, and an overridden coordinate. -/
theorem reordered_source_read_as_its_value :
    ∃ s tree v,
      s = "\x7b\"x\":\x7b\"\":0,\"\":1\x7d,\"partition\":\x7b\"a\":\"1\",\"a\":\"2\"\x7d," ++
        "\"name\":\"s\"\x7d" ∧
      Json.read? s = some tree ∧ tree.value? = some v ∧ (written .source).Clear tree ∧
      ofText? Source.ofJson s = some ⟨"s", Dictionary.empty.insert "a" "2"⟩ := by
  let unknown := Json.object [("", .number (.natural 0)), ("", .number (.natural 1))]
  let partition := Json.object [("a", .string "1"), ("a", .string "2")]
  let tree := Json.object [("x", unknown), ("partition", partition), ("name", .string "s")]
  let value := Json.object
    [("name", .string "s"), ("partition", .object [("a", .string "2")]),
      ("x", .object [("", .number (.natural 1))])]
  have exact : tree.Exact := by
    refine .object
      (List.forall_mem_cons.mpr ⟨.object ?_, List.forall_mem_cons.mpr ⟨.object ?_, ?_⟩⟩)
    · simp only [List.forall_mem_cons]
      exact ⟨.natural (by decide), .natural (by decide), by simp⟩
    · simp only [List.forall_mem_cons]
      exact ⟨.string _, .string _, by simp⟩
    · simpa using Json.Exact.string "s"
  have parsed : Json.read? tree.text = some tree := Json.read?_text exact
  have denoted : tree.value? = some value := rfl
  have overridden : clearDictionary partition := by simp [clearDictionary, partition]
  have clear : (written .source).Clear tree := by
    refine ⟨by decide, fun name j found rule listed same => ?_⟩
    simp only [List.mem_cons, List.not_mem_nil, or_false] at listed
    obtain rfl | rfl := listed
    · trivial
    · subst same
      cases found
      exact overridden
  have printed : tree.text =
      "\x7b\"x\":\x7b\"\":0,\"\":1\x7d,\"partition\":\x7b\"a\":\"1\",\"a\":\"2\"\x7d," ++
        "\"name\":\"s\"\x7d" := rfl
  have reads := text_read_as_its_value (written .source) parsed denoted clear
  exact ⟨_, _, _, printed, parsed, denoted, clear, (reads _).mpr rfl⟩

end Readable

/-- In a text every member of a position is read, also one that a later member overrides, and it
must be a text. -/
theorem overridden_null_refused_in_text :
    ∃ s tree v, s = "\x7b\"a\":null,\"a\":\"x\"\x7d" ∧ Json.read? s = some tree ∧
      tree.value? = some v ∧
      ofText? Position.ofJson s = none ∧ Position.ofJson v = .ok (Position.empty.set "a" "x") := by
  let tree := Json.object [("a", .null), ("a", .string "x")]
  have exact : tree.Exact := by
    apply Json.Exact.object
    simp only [List.forall_mem_cons]
    exact ⟨.null, .string _, by simp⟩
  have parsed : Json.read? tree.text = some tree := Json.read?_text exact
  have refused : ofText? Position.ofJson tree.text = none := by
    rw [ofText?, parsed]
    rfl
  exact ⟨tree.text, tree, .object [("a", .string "x")], rfl, parsed, rfl, refused, rfl⟩

end Codec

end ChangeStream
