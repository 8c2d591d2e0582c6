import ChangeStream.Proofs.Codec.Acceptance
import ChangeStream.Proofs.Json.Text

/-!
# Writing and reading back

Whatever has a JSON form is written in full, without a double anywhere, and its decoder takes the
fields in the order that they are written in. So it is read back from its text, and from the value
of what is written.
-/

namespace ChangeStream

open Codec

/-! ## Exactness -/

theorem Dictionary.toJson_exact (d : Dictionary String) : d.toJson.Exact :=
  .texts d.entries

theorem Position.toJson_exact (position : Position) : position.toJson.Exact :=
  position.components.toJson_exact

theorem Change.toJson_exact (event : Change) : event.toJson.Exact := by
  have payload :
      (Json.array (event.payload.map fun byte => .number (.natural byte.toNat))).Exact := by
    apply Json.Exact.array
    intro item listed
    obtain ⟨byte, _, rfl⟩ := List.mem_map.mp listed
    apply Json.Exact.natural
    exact Nat.lt_trans byte.toNat_lt (by decide)
  apply Json.Exact.object
  simp only [List.forall_mem_cons]
  exact ⟨.string _, .string _, event.position.toJson_exact, payload, by simp⟩

theorem Watermark.toJson_exact (event : Watermark) : event.toJson.Exact := by
  apply Json.Exact.object
  simp only [List.forall_mem_cons]
  exact ⟨.string _, event.position.toJson_exact, .string _, by simp⟩

theorem Source.toJson_exact (source : Source) : source.toJson.Exact := by
  apply Json.Exact.object
  simp only [List.forall_mem_cons]
  exact ⟨.string _, source.partition.toJson_exact, by simp⟩

theorem RangeEnd.toJson_exact (stop : RangeEnd) : stop.toJson.Exact := by
  cases stop with
  | bounded position =>
    apply Json.Exact.object
    simpa using position.toJson_exact
  | noStopping => exact .string _

theorem Record.toJson_exact (record : Record) : record.toJson.Exact := by
  cases record with
  | change split event =>
    have content : (Json.object [("split_id", split.toJson), ("event", event.toJson)]).Exact := by
      apply Json.Exact.object
      simp only [List.forall_mem_cons]
      exact ⟨.string _, event.toJson_exact, by simp⟩
    apply Json.Exact.object
    simpa using content
  | watermark event =>
    apply Json.Exact.object
    simpa using event.toJson_exact

/-! ## Reading in the written order

Decoders being lawful is about values, whose keys are in ascending order. In a text the members
stand as they were written.
-/

theorem Codec.field_of_lookup {α : Type} {given : Given} {name : String} {decode : Decoder α}
    {j : Json} {x : α} (found : given.values.lookup name = some j) (read : decode j = .ok x) :
    (field name decode).build given = .ok x := by
  simp [field, found, read]

theorem Codec.list_map_write {α : Type} {decode : Decoder α} {write : α → Json}
    (each : ∀ x, decode (write x) = .ok x) (xs : List α) :
    list decode (.array (xs.map write)) = .ok xs := by
  rw [list]
  induction xs with
  | nil => rfl
  | cons x xs ih =>
    rw [List.map_cons, mapM_cons_eq_ok]
    exact ⟨x, each x, xs, ih, rfl⟩

theorem Dictionary.ofJson_toJson (d : Dictionary String) : dictionary d.toJson = .ok d := by
  rw [toJson, dictionary_texts, ofList_entries]

theorem Position.ofJson_toJson (position : Position) : ofJson position.toJson = .ok position := by
  rw [ofJson, toJson, Dictionary.ofJson_toJson, Except.map]

theorem RowOp.ofJson_toJson (op : RowOp) : ofJson op.toJson = .ok op := by
  cases op <;> rfl

theorem WatermarkKind.ofJson_toJson (kind : WatermarkKind) : ofJson kind.toJson = .ok kind := by
  cases kind <;> rfl

theorem RangeEnd.ofJson_toJson (stop : RangeEnd) : ofJson stop.toJson = .ok stop := by
  cases stop with
  | bounded position =>
    change (Position.ofJson position.toJson).map bounded = .ok (bounded position)
    rw [Position.ofJson_toJson, Except.map]
  | noStopping => rfl

theorem SplitId.ofJson_toJson (split : SplitId) : ofJson split.toJson = .ok split := rfl

theorem Change.ofJson_toJson (event : Change) : ofJson event.toJson = .ok event := by
  have payload := list_map_write (fun b => byte_natural.mpr rfl) event.payload
  rw [ofJson, toJson, composed.record_object rfl (by simp)]
  simp only [fields, Fields.build_seq, Fields.build_map]
  refine ⟨_,
    ⟨_, ⟨_, ⟨event.table, ?table, rfl⟩, event.op, ?op, rfl⟩, event.position, ?position, rfl⟩,
    event.payload, ?payload, rfl⟩
  case table => exact field_of_lookup rfl rfl
  case op => exact field_of_lookup rfl event.op.ofJson_toJson
  case position => exact field_of_lookup rfl event.position.ofJson_toJson
  case payload => exact field_of_lookup rfl payload

theorem Watermark.ofJson_toJson (event : Watermark) : ofJson event.toJson = .ok event := by
  rw [ofJson, toJson, composed.record_object rfl (by simp)]
  simp only [fields, Fields.build_seq, Fields.build_map]
  refine ⟨_, ⟨_, ⟨event.split, ?split, rfl⟩, event.position, ?position, rfl⟩, event.kind,
    ?kind, rfl⟩
  case split => exact field_of_lookup rfl event.split.ofJson_toJson
  case position => exact field_of_lookup rfl event.position.ofJson_toJson
  case kind => exact field_of_lookup rfl event.kind.ofJson_toJson

theorem Source.ofJson_toJson (source : Source) : ofJson source.toJson = .ok source := by
  rw [ofJson, toJson, composed.record_object rfl (by simp)]
  simp only [fields, Fields.build_seq, Fields.build_map]
  refine ⟨_, ⟨source.name, ?name, rfl⟩, source.partition, ?partition, rfl⟩
  case name => exact field_of_lookup rfl rfl
  case partition => exact field_of_lookup rfl source.partition.ofJson_toJson

theorem Record.ofJson_toJson (record : Record) : ofJson .text record.toJson = .ok record := by
  cases record with
  | change split event =>
    change Codec.record (.lenient "Change") changeFields
      (.object [("split_id", split.toJson), ("event", event.toJson)]) = .ok (change split event)
    rw [changeRegular.record_object rfl (by simp)]
    simp only [changeFields, Fields.build_seq, Fields.build_map]
    refine ⟨_, ⟨split, ?split, rfl⟩, event, ?event, rfl⟩
    case split => exact field_of_lookup rfl split.ofJson_toJson
    case event => exact field_of_lookup rfl event.ofJson_toJson
  | watermark event =>
    change (Watermark.ofJson event.toJson).map watermark = .ok (watermark event)
    rw [event.ofJson_toJson, Except.map]

namespace Codec.Form

theorem write_exact : ∀ (form : Form) (x : form.Carrier), (form.write x).Exact
  | position, x => Position.toJson_exact x
  | splitId, _ => .string _
  | rangeEnd, x => RangeEnd.toJson_exact x
  | rowOp, _ => .string _
  | watermarkKind, _ => .string _
  | change, x => Change.toJson_exact x
  | watermark, x => Watermark.toJson_exact x
  | record, x => Record.toJson_exact x
  | source, x => Source.toJson_exact x

theorem read_write : ∀ (form : Form) (x : form.Carrier), form.read .text (form.write x) = .ok x
  | position => Position.ofJson_toJson
  | splitId => SplitId.ofJson_toJson
  | rangeEnd => RangeEnd.ofJson_toJson
  | rowOp => RowOp.ofJson_toJson
  | watermarkKind => WatermarkKind.ofJson_toJson
  | change => Change.ofJson_toJson
  | watermark => Watermark.ofJson_toJson
  | record => Record.ofJson_toJson
  | source => Source.ofJson_toJson

/-- What is written is read back, as a text and as a value. -/
theorem restores (form : Form) (x : form.Carrier) :
    ofText? (form.read .text) (form.write x).text = some x ∧
      ofTree? (form.read .value) (form.write x) = some (.ok x) := by
  refine ⟨?_, form.lawful.ofTree?_write x⟩
  rw [ofText?, Json.read?_text (form.write_exact x), Option.bind_some, form.read_write x]
  rfl

end Codec.Form

end ChangeStream
