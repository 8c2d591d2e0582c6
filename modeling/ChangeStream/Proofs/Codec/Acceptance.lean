import ChangeStream.Codec.Record
import ChangeStream.Proofs.Codec.Records
import ChangeStream.Proofs.Codec.Variants

/-!
# The loose forms of positions, records and sources

For each type with a JSON form, what its loose forms are and that its decoder is lawful: it takes
exactly the values that tidying makes what is written for something, and gives that. All other
values are errors.
-/

namespace ChangeStream

open Codec

/-! ## Texts and dictionaries -/

theorem SplitId.lawful : Lawful SplitId.ofJson id SplitId.toJson := by
  apply text_lawful.equiv
  intro s split
  exact ⟨fun same => same ▸ rfl, fun same => same ▸ rfl⟩

theorem Position.lawful : Lawful Position.ofJson id Position.toJson := by
  apply dictionary_lawful.equiv
  intro d position
  exact ⟨fun same => same ▸ rfl, fun same => same ▸ rfl⟩

/-! ## Variants -/

namespace RowOp

/-- Takes a loose form of an operation back to its name. -/
def tidy : Json → Json :=
  tidyVariant ([insert, update, delete, read].map fun op => (op.name, none))

theorem lawful : Lawful ofJson tidy toJson := by
  have injective : name.Injective := by
    intro a b same
    cases a <;> cases b <;> simp_all [name]
  apply bare_lawful injective
  intro op
  cases op <;> decide

end RowOp

namespace WatermarkKind

/-- Takes a loose form of a kind of watermark back to its name. -/
def tidy : Json → Json :=
  tidyVariant ([low, high, ending].map fun kind => (kind.name, none))

theorem lawful : Lawful ofJson tidy toJson := by
  have injective : name.Injective := by
    intro a b same
    cases a <;> cases b <;> simp_all [name]
  apply bare_lawful injective
  intro kind
  cases kind <;> decide

end WatermarkKind

namespace RangeEnd

/-- Takes a loose form of an end back to what is written. -/
def tidy : Json → Json :=
  tidyVariant [("Bounded", some id), ("NoStopping", none)]

theorem value?_bounded (position : Position) :
    (bounded position).toJson.value? = position.toJson.value?.map fun v =>
      .object [("Bounded", v)] :=
  Json.value?_single _ _

theorem value?_noStopping : noStopping.toJson.value? = some (.string "NoStopping") := rfl

theorem lawful : Lawful ofJson tidy toJson := by
  apply variant_lawful
  · intro x
    cases x with
    | bounded position =>
      obtain ⟨v, written⟩ := Position.lawful.denotes position
      exact .inr ⟨"Bounded", v, by rw [value?_bounded, written, Option.map_some]⟩
    | noStopping => exact .inl ⟨_, value?_noStopping⟩
  intro name
  by_cases hbounded : name = "Bounded"
  · subst hbounded
    apply CaseLaw.holding
    · simp [Content.read]
    · intro x
      cases x <;> simp [value?_bounded, value?_noStopping]
    · intro v value x
      rw [Content.read, map_eq_ok]
      cases x with
      | bounded position => simp [value?_bounded, Position.lawful.accepts value]
      | noStopping => simp [value?_noStopping]
    · intro x v _
      rfl
  by_cases hnoStopping : name = "NoStopping"
  · subst hnoStopping
    apply CaseLaw.bare
    · intro x
      cases x <;> simp [value?_bounded, value?_noStopping]
    · intro x
      cases x <;> simp [value?_bounded, value?_noStopping]
  simp only [Dictionary.lookup_cons_ite, hbounded, hnoStopping, if_false, List.lookup_nil]
  apply CaseLaw.unknown
  · intro x
    cases x <;> simp [value?_bounded, value?_noStopping, Ne.symm hnoStopping]
  · intro x v
    cases x <;> simp [value?_bounded, value?_noStopping, Ne.symm hbounded]

end RangeEnd

/-! ## Records -/

namespace Change

/-- Takes a loose form of a change back to what is written. -/
def tidy : Json → Json :=
  tidyRecord [("table", id), ("op", RowOp.tidy), ("position", id), ("payload", id)]

/-- The fields of a change as they are written. -/
def fieldForms : List (FieldForm Change) := [
  text_lawful.form "table" table,
  RowOp.lawful.form "op" op,
  Position.lawful.form "position" position,
  (list_lawful byte_lawful).form "payload" payload]

theorem composed : Composed fields fieldForms where
  names := rfl
  distinct := by decide
  checked := (((Fields.field_checked _ _).map _).seq (Fields.field_checked _ _)).seq
    (Fields.field_checked _ _)
    |>.seq (Fields.field_checked _ _)
  builds given values x := by
    simp only [fields, Fields.build_seq, Fields.build_map, text_lawful.field values,
      RowOp.lawful.field values, Position.lawful.field values,
      (list_lawful byte_lawful).field values]
    simp only [fieldForms, List.forall_mem_cons, Lawful.form, Function.comp_apply]
    constructor
    · rintro ⟨_, ⟨_, ⟨_, ⟨table, htable, rfl⟩, op, hop, rfl⟩, position, hposition, rfl⟩, payload,
        hpayload, rfl⟩
      exact ⟨htable, hop, hposition, hpayload, by simp⟩
    · rintro ⟨htable, hop, hposition, hpayload, -⟩
      exact ⟨_, ⟨_, ⟨_, ⟨_, htable, rfl⟩, _, hop, rfl⟩, _, hposition, rfl⟩, _, hpayload, rfl⟩

theorem lawful : Lawful ofJson tidy toJson :=
  composed.lawful rfl

end Change

namespace Watermark

/-- Takes a loose form of a watermark back to what is written. -/
def tidy : Json → Json :=
  tidyRecord [("split_id", id), ("position", id), ("kind", WatermarkKind.tidy)]

/-- The fields of a watermark as they are written. -/
def fieldForms : List (FieldForm Watermark) := [
  SplitId.lawful.form "split_id" split,
  Position.lawful.form "position" position,
  WatermarkKind.lawful.form "kind" kind]

theorem composed : Composed fields fieldForms where
  names := rfl
  distinct := by decide
  checked := (((Fields.field_checked _ _).map _).seq (Fields.field_checked _ _)).seq
    (Fields.field_checked _ _)
  builds given values x := by
    simp only [fields, Fields.build_seq, Fields.build_map, SplitId.lawful.field values,
      Position.lawful.field values, WatermarkKind.lawful.field values]
    simp only [fieldForms, List.forall_mem_cons, Lawful.form, Function.comp_apply]
    constructor
    · rintro ⟨_, ⟨_, ⟨split, hsplit, rfl⟩, position, hposition, rfl⟩, kind, hkind, rfl⟩
      exact ⟨hsplit, hposition, hkind, by simp⟩
    · rintro ⟨hsplit, hposition, hkind, -⟩
      exact ⟨_, ⟨_, ⟨_, hsplit, rfl⟩, _, hposition, rfl⟩, _, hkind, rfl⟩

theorem lawful : Lawful ofJson tidy toJson :=
  composed.lawful rfl

end Watermark

namespace Source

/-- Takes a loose form of a source back to what is written. -/
def tidy : Json → Json :=
  tidyRecord [("name", id), ("partition", id)]

/-- The fields of a source as they are written. -/
def fieldForms : List (FieldForm Source) := [
  text_lawful.form "name" name,
  dictionary_lawful.form "partition" partition]

theorem composed : Composed fields fieldForms where
  names := rfl
  distinct := by decide
  checked := ((Fields.field_checked _ _).map _).seq (Fields.field_checked _ _)
  builds given values x := by
    simp only [fields, Fields.build_seq, Fields.build_map, text_lawful.field values,
      dictionary_lawful.field values]
    simp only [fieldForms, List.forall_mem_cons, Lawful.form, Function.comp_apply]
    constructor
    · rintro ⟨_, ⟨name, hname, rfl⟩, partition, hpartition, rfl⟩
      exact ⟨hname, hpartition, by simp⟩
    · rintro ⟨hname, hpartition, -⟩
      exact ⟨_, ⟨_, hname, rfl⟩, _, hpartition, rfl⟩

theorem lawful : Lawful ofJson tidy toJson :=
  composed.lawful rfl

end Source

namespace Record

/-- The rules for the content of a change record, which only an object stands for in a value. -/
def changeRules : List (String × (Json → Json)) :=
  [("split_id", id), ("event", Change.tidy)]

/-- Takes a loose form of a record back to what is written. -/
def tidy : Json → Json :=
  tidyVariant [("Change", some (tidyObject changeRules)), ("Watermark", some Watermark.tidy)]

/-- The fields of a change record, with the pair of them in place of the record. -/
def pairFields : Fields (SplitId × Change) :=
  Prod.mk <$> field "split_id" SplitId.ofJson <*> field "event" Change.ofJson

/-- The fields of a change record as they are written. -/
def changeForms : List (FieldForm (SplitId × Change)) := [
  SplitId.lawful.form "split_id" Prod.fst,
  Change.lawful.form "event" Prod.snd]

theorem pairComposed : Composed pairFields changeForms where
  names := rfl
  distinct := by decide
  checked := ((Fields.field_checked _ _).map _).seq (Fields.field_checked _ _)
  builds given values x := by
    simp only [pairFields, Fields.build_seq, Fields.build_map, SplitId.lawful.field values,
      Change.lawful.field values]
    simp only [changeForms, List.forall_mem_cons, Lawful.form, Function.comp_apply]
    constructor
    · rintro ⟨_, ⟨split, hsplit, rfl⟩, event, hevent, rfl⟩
      exact ⟨hsplit, hevent, by simp⟩
    · rintro ⟨hsplit, hevent, -⟩
      exact ⟨_, ⟨_, hsplit, rfl⟩, _, hevent, rfl⟩

theorem changeRegular : changeFields.Regular where
  distinct := by decide
  checked := ((Fields.field_checked _ _).map _).seq (Fields.field_checked _ _)

theorem build_changeFields {given : Given} {record : Record} :
    changeFields.build given = .ok record ↔
      ∃ pair, pairFields.build given = .ok pair ∧ change pair.1 pair.2 = record := by
  simp only [changeFields, pairFields, Fields.build_seq, Fields.build_map]
  constructor
  · rintro ⟨_, ⟨split, hsplit, rfl⟩, event, hevent, rfl⟩
    exact ⟨_, ⟨_, ⟨_, hsplit, rfl⟩, _, hevent, rfl⟩, rfl⟩
  · rintro ⟨_, ⟨_, ⟨split, hsplit, rfl⟩, event, hevent, rfl⟩, rfl⟩
    exact ⟨_, ⟨_, hsplit, rfl⟩, _, hevent, rfl⟩

theorem value?_change (split : SplitId) (event : Change) :
    (change split event).toJson.value? =
      (Json.object (changeForms.map (·.member (split, event)))).value?.map fun v =>
        .object [("Change", v)] :=
  Json.value?_single _ _

theorem value?_watermark (event : Watermark) :
    (watermark event).toJson.value? = event.toJson.value?.map fun v => .object [("Watermark", v)] :=
  Json.value?_single _ _

/-- The content of a change record is read as the pair of its fields would be. -/
theorem changeContent_eq_ok {v : Json} (value : v.IsValue) (record : Record) :
    changeContent .value v = .ok record ↔
      record.toJson.value? = some (.object [("Change", tidyObject changeRules v)]) := by
  cases v with
  | object members =>
    have built : ∀ pair, pairFields.build ⟨members, .missingField⟩ = .ok pair ↔
        (Json.object (changeForms.map (·.member pair))).value? =
          some (tidyObject changeRules (.object members)) :=
      pairComposed.build_eq_ok_iff value fun _ => rfl
    change Codec.record (.lenient "Change") changeFields (.object members) = _ ↔ _
    rw [changeRegular.record_object rfl (nodup_keys_of_ascending value.ascending),
      build_changeFields]
    simp only [built]
    cases record with
    | change split event => simp [value?_change]
    | watermark event => simp [value?_watermark]
  | _ =>
    cases record with
    | change split event =>
      obtain ⟨entries, written⟩ := FieldForm.value?_object changeForms (split, event)
      simp [changeContent, tidyObject, value?_change, written]
    | watermark event => simp [changeContent, value?_watermark]

theorem lawful : Lawful (ofJson .value) tidy toJson := by
  apply variant_lawful
  · intro x
    cases x with
    | change split event =>
      obtain ⟨entries, written⟩ := FieldForm.value?_object changeForms (split, event)
      exact .inr ⟨"Change", _, by rw [value?_change, written, Option.map_some]⟩
    | watermark event =>
      obtain ⟨v, written⟩ := Watermark.lawful.denotes event
      exact .inr ⟨"Watermark", v, by rw [value?_watermark, written, Option.map_some]⟩
  intro name
  have named : ∀ (x : Record) (s : String), x.toJson.value? ≠ some (.string s) := by
    intro x s
    cases x <;> simp [value?_change, value?_watermark]
  by_cases hchange : name = "Change"
  · subst hchange
    apply CaseLaw.holding
    · simp [Content.read]
    · exact fun x => named x _
    · exact fun value => changeContent_eq_ok value
    · intro x v written
      cases x with
      | change split event =>
        apply pairComposed.tidyObject_written (x := (split, event))
        simpa [value?_change] using written
      | watermark event => simp [value?_watermark] at written
  by_cases hwatermark : name = "Watermark"
  · subst hwatermark
    apply CaseLaw.holding
    · simp [Content.read]
    · exact fun x => named x _
    · intro v value x
      rw [Content.read, map_eq_ok]
      cases x with
      | change split event => simp [value?_change]
      | watermark event => simp [value?_watermark, Watermark.lawful.accepts value]
    · intro x v written
      cases x with
      | change split event => simp [value?_change] at written
      | watermark event =>
        apply Watermark.lawful.tidied event
        simpa [value?_watermark] using written
  simp only [Dictionary.lookup_cons_ite, hchange, hwatermark, if_false, List.lookup_nil]
  apply CaseLaw.unknown
  · exact fun x => named x _
  · intro x v
    cases x <;> simp [value?_change, value?_watermark, Ne.symm hchange, Ne.symm hwatermark]

end Record

/-! ## All of them -/

namespace Codec

/-- The types with a JSON form. -/
inductive Form
  | position
  | splitId
  | rangeEnd
  | rowOp
  | watermarkKind
  | change
  | watermark
  | record
  | source

namespace Form

/-- What is written and read in a form. -/
def Carrier : Form → Type
  | position => Position
  | splitId => SplitId
  | rangeEnd => RangeEnd
  | rowOp => RowOp
  | watermarkKind => WatermarkKind
  | change => Change
  | watermark => Watermark
  | record => Record
  | source => Source

/-- The writer of a form. -/
def write : (form : Form) → form.Carrier → Json
  | position => Position.toJson
  | splitId => SplitId.toJson
  | rangeEnd => RangeEnd.toJson
  | rowOp => RowOp.toJson
  | watermarkKind => WatermarkKind.toJson
  | change => Change.toJson
  | watermark => Watermark.toJson
  | record => Record.toJson
  | source => Source.toJson

/-- The reader of a form. -/
def read (origin : Origin) : (form : Form) → Decoder form.Carrier
  | position => Position.ofJson
  | splitId => SplitId.ofJson
  | rangeEnd => RangeEnd.ofJson
  | rowOp => RowOp.ofJson
  | watermarkKind => WatermarkKind.ofJson
  | change => Change.ofJson
  | watermark => Watermark.ofJson
  | record => Record.ofJson origin
  | source => Source.ofJson

/-- Takes what is loose in a value of a form back to what is written. Texts and dictionaries have
no loose forms. -/
def tidy : Form → Json → Json
  | position | splitId => id
  | rangeEnd => RangeEnd.tidy
  | rowOp => RowOp.tidy
  | watermarkKind => WatermarkKind.tidy
  | change => Change.tidy
  | watermark => Watermark.tidy
  | record => Record.tidy
  | source => Source.tidy

theorem lawful : ∀ form, Lawful (read .value form) form.tidy form.write
  | position => Position.lawful
  | splitId => SplitId.lawful
  | rangeEnd => RangeEnd.lawful
  | rowOp => RowOp.lawful
  | watermarkKind => WatermarkKind.lawful
  | change => Change.lawful
  | watermark => Watermark.lawful
  | record => Record.lawful
  | source => Source.lawful

/-- A value is taken for `x` exactly if tidying makes it the value of what is written for `x`, and
all values that are not taken so are errors. -/
theorem accepts_loose_forms (form : Form) (tree : Json) :
    (∀ x, ofTree? (form.read .value) tree = some (.ok x) ↔
      tree.value?.map form.tidy = (form.write x).value?) ∧
      ((∃ error, ofTree? (form.read .value) tree = some (.error error)) ↔
        ∃ v, tree.value? = some v ∧ ∀ x, (form.write x).value? ≠ some (form.tidy v)) := by
  have law := form.lawful
  rw [ofTree?]
  cases denoted : tree.value? with
  | none =>
    have written : ∀ x, (form.write x).value? ≠ none := by
      intro x nothing
      obtain ⟨v, hv⟩ := law.denotes x
      cases nothing.symm.trans hv
    simp [Ne.symm (written _)]
  | some v =>
    have value := Json.isValue_of_value? denoted
    have refused : ∀ x, (form.write x).value? ≠ some (form.tidy v) ↔ form.read .value v ≠ .ok x :=
      fun x => not_congr (law.accepts value x).symm
    simp only [Option.map_some, Option.some.injEq, exists_eq_left', refused]
    refine ⟨fun x => (law.accepts value x).trans eq_comm, ?_⟩
    cases form.read .value v with
    | error e => simp
    | ok x => simp

example :
    ofTree? (read .value .change)
      (.array
        [.string "t", .object [("Insert", .null)], .object [], .array [.number (.natural 7)]]) =
        some (.ok (Change.mk "t" .insert .empty [7])) := rfl

end Form

end Codec

end ChangeStream
