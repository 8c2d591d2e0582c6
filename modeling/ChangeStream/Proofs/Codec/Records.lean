import ChangeStream.Proofs.Codec.Lawful

/-!
# Records in loose form

A record is built from what its fields find by their names, so that it does not matter where the
members of an object stand, what other members there are, and whether the items come from a list.
From lawful decoders of the fields the decoder of the record is lawful.
-/

namespace ChangeStream.Codec

variable {α β : Type}

/-! ## Building -/

namespace Fields

theorem build_seq {f : Fields (α → β)} {fields : Fields α} {given : Given} {y : β} :
    (f <*> fields).build given = .ok y ↔
      ∃ g, f.build given = .ok g ∧ ∃ x, fields.build given = .ok x ∧ g x = y := by
  change (f.build given >>= fun g => fields.build given >>= fun x => .ok (g x)) = .ok y ↔ _
  simp only [bind_eq_ok, Except.ok.injEq]

theorem build_map {f : α → β} {fields : Fields α} {given : Given} {y : β} :
    (f <$> fields).build given = .ok y ↔ ∃ x, fields.build given = .ok x ∧ f x = y := by
  change (pure f <*> fields).build given = .ok y ↔ _
  rw [build_seq]
  simp [pure]

/-- A record is built only if each of its fields is there and can be read. -/
def Checked (fields : Fields α) : Prop :=
  ∀ given x, fields.build given = .ok x →
    ∀ reader ∈ fields.readers, ∃ j, given.values.lookup reader.1 = some j ∧ reader.2 j = .ok ()

theorem field_checked (name : String) (decode : Decoder α) : (field name decode).Checked := by
  intro given x built reader member
  rw [field, List.mem_singleton] at member
  subst member
  simp only [field] at built
  split at built
  · next j found => exact ⟨j, found, by simp [built, Except.map]⟩
  · cases built

theorem Checked.seq {f : Fields (α → β)} {fields : Fields α} (first : f.Checked)
    (second : fields.Checked) :
    (f <*> fields).Checked := by
  intro given y built reader member
  obtain ⟨g, hg, x, hx, -⟩ := build_seq.mp built
  rcases List.mem_append.mp member with before | after
  · exact first given g hg reader before
  · exact second given x hx reader after

theorem Checked.map {fields : Fields α} (checked : fields.Checked) (f : α → β) :
    (f <$> fields).Checked := by
  intro given y built reader member
  obtain ⟨x, hx, -⟩ := build_map.mp built
  exact checked given x hx reader member

/-- A record is built only if each of its fields that is there can be read. -/
def Heeds (fields : Fields α) : Prop :=
  ∀ given x, fields.build given = .ok x →
    ∀ reader ∈ fields.readers, ∀ j, given.values.lookup reader.1 = some j → reader.2 j = .ok ()

theorem Heeds.seq {f : Fields (α → β)} {fields : Fields α} (first : f.Heeds)
    (second : fields.Heeds) :
    (f <*> fields).Heeds := by
  intro given y built reader listed
  obtain ⟨g, hg, x, hx, -⟩ := build_seq.mp built
  rcases List.mem_append.mp listed with before | after
  · exact first given g hg reader before
  · exact second given x hx reader after

theorem Heeds.map {fields : Fields α} (heeds : fields.Heeds) (f : α → β) :
    (f <$> fields).Heeds := by
  intro given y built reader listed
  obtain ⟨x, hx, -⟩ := build_map.mp built
  exact heeds given x hx reader listed

theorem Checked.heeds {fields : Fields α} (checked : fields.Checked) : fields.Heeds := by
  intro given x built reader listed j found
  obtain ⟨i, here, readable⟩ := checked given x built reader listed
  cases here.symm.trans found
  exact readable

/-- The names of the fields differ, and all fields are needed. -/
structure Regular (fields : Fields α) : Prop where
  distinct : fields.names.Nodup
  checked : fields.Checked

end Fields

/-! ## Fields as they are written -/

/-- A field as it is written: how its values are tidied, and what stands there for a record. -/
structure FieldForm (α : Type) where
  name : String
  tidy : Json → Json
  write : α → Json
  denotes : ∀ x, ∃ v, (write x).value? = some v
  tidied : ∀ x v, (write x).value? = some v → tidy v = v

/-- The form of a field that a lawful decoder reads. -/
def Lawful.form {decode : Decoder β} {tidy : Json → Json} {write : β → Json}
    (law : Lawful decode tidy write) (name : String) (get : α → β) : FieldForm α :=
  ⟨name, tidy, write ∘ get, fun x => law.denotes (get x), fun x => law.tidied (get x)⟩

namespace FieldForm

/-- The rule for tidying the values of a field. -/
def rule (form : FieldForm α) : String × (Json → Json) := (form.name, form.tidy)

/-- The member that is written for a field of a record. -/
def member (x : α) (form : FieldForm α) : String × Json := (form.name, form.write x)

/-- The form of the field of a name. -/
def named? (forms : List (FieldForm α)) (key : String) : Option (FieldForm α) :=
  forms.find? fun form => key == form.name

theorem named?_cons (form : FieldForm α) (forms : List (FieldForm α)) (key : String) :
    named? (form :: forms) key = if key = form.name then some form else named? forms key := by
  rw [named?, List.find?_cons]
  by_cases here : key = form.name
  · simp [here]
  · simp [here, beq_eq_false_iff_ne.mpr here, named?]

theorem lookup_map {γ : Type} (f : FieldForm α → γ) (forms : List (FieldForm α)) (key : String) :
    (forms.map fun form => (form.name, f form)).lookup key = (named? forms key).map f := by
  induction forms with
  | nil => rfl
  | cons form forms ih =>
    rw [List.map_cons, Dictionary.lookup_cons_ite, ih, named?_cons]
    split <;> rfl

theorem named?_eq_some_iff {forms : List (FieldForm α)}
    (distinct : (forms.map FieldForm.name).Nodup) {key : String} {form : FieldForm α} :
    named? forms key = some form ↔ form ∈ forms ∧ key = form.name := by
  constructor
  · intro found
    exact ⟨List.mem_of_find?_eq_some found, by simpa using List.find?_some found⟩
  · rintro ⟨member, rfl⟩
    induction forms with
    | nil => cases member
    | cons first forms ih =>
      obtain ⟨fresh, distinct⟩ := List.nodup_cons.mp distinct
      rw [named?_cons]
      rcases List.mem_cons.mp member with rfl | later
      · rw [if_pos rfl]
      · have other : form.name ≠ first.name := fun same => fresh (same ▸ List.mem_map_of_mem later)
        rw [if_neg other]
        exact ih distinct later

theorem member_denotes (forms : List (FieldForm α)) (x : α) :
    ∀ member ∈ forms.map (·.member x), ∃ v, member.2.value? = some v := by
  intro member listed
  obtain ⟨form, _, rfl⟩ := List.mem_map.mp listed
  exact form.denotes x

theorem value?_object (forms : List (FieldForm α)) (x : α) :
    ∃ entries, (Json.object (forms.map (·.member x))).value? = some (.object entries) := by
  obtain ⟨values, hvalues⟩ := Json.exists_valueMembers? (member_denotes forms x)
  exact ⟨_, by rw [Json.value?, hvalues, Option.map_some]⟩

end FieldForm

theorem lookup_keepFields (rules : List (String × (Json → Json))) (members : List (String × Json))
    (key : String) :
    (keepFields rules members).lookup key = (rules.lookup key).bind fun tidy =>
      (members.lookup key).map tidy := by
  induction members with
  | nil => simp [keepFields]
  | cons first rest ih =>
    obtain ⟨name, item⟩ := first
    rw [keepFields] at ih ⊢
    rw [List.filterMap_cons, Dictionary.lookup_cons_ite]
    cases rule : rules.lookup name with
    | none =>
      rw [Option.map_none, ih]
      by_cases here : key = name
      · simp [here, rule]
      · simp [here]
    | some tidy =>
      rw [Option.map_some, Dictionary.lookup_cons_ite, ih]
      by_cases here : key = name
      · simp [here, rule]
      · simp [here]

theorem keepFields_ascending {rules : List (String × (Json → Json))}
    {members : List (String × Json)} (ascending : members.Pairwise fun a b => a.1 < b.1) :
    (keepFields rules members).Pairwise fun a b => a.1 < b.1 := by
  apply ascending.filterMap
  intro a b before a' ha b' hb
  obtain ⟨_, _, rfl⟩ := Option.map_eq_some_iff.mp ha
  obtain ⟨_, _, rfl⟩ := Option.map_eq_some_iff.mp hb
  exact before

/-- What a record is composed of. -/
structure Composed (fields : Fields α)
    (forms : List (FieldForm α)) : Prop extends fields.Regular where
  names : fields.names = forms.map FieldForm.name
  builds : ∀ given : Given, (∀ name j, given.values.lookup name = some j → j.IsValue) → ∀ x,
    fields.build given = .ok x ↔
      ∀ form ∈ forms, (form.write x).value? = (given.values.lookup form.name).map form.tidy

/-- A field is built from what stands under its name. -/
theorem Lawful.field {decode : Decoder α} {tidy : Json → Json} {write : α → Json}
    (law : Lawful decode tidy write) {given : Given}
    (values : ∀ name j, given.values.lookup name = some j → j.IsValue) (name : String) (x : α) :
    (Codec.field name decode).build given = .ok x ↔
    (write x).value? = (given.values.lookup name).map tidy := by
  simp only [Codec.field]
  cases found : given.values.lookup name with
  | none =>
    obtain ⟨v, hv⟩ := law.denotes x
    simp [hv]
  | some j => exact law.accepts (values name j found) x

namespace Composed

variable {fields : Fields α} {forms : List (FieldForm α)}

theorem distinct_forms (composed : Composed fields forms) : (forms.map FieldForm.name).Nodup :=
  composed.names ▸ composed.distinct

theorem value?_eq_some_iff (composed : Composed fields forms) {entries : List (String × Json)}
    (ascending : entries.Pairwise fun a b => a.1 < b.1) (x : α) :
    (Json.object (forms.map (·.member x))).value? = some (.object entries) ↔
      ∀ key, entries.lookup key = (FieldForm.named? forms key).bind fun form =>
        (form.write x).value? := by
  have distinct : ((forms.map (·.member x)).map Prod.fst).Nodup := by
    rw [List.map_map]
    exact composed.distinct_forms
  have found :
      ∀ key, (forms.map (·.member x)).lookup key = (FieldForm.named? forms key).map (·.write x) :=
    FieldForm.lookup_map (·.write x) forms
  rw [Json.value?_object_eq_some_iff distinct (FieldForm.member_denotes forms x) ascending]
  simp only [found, Option.bind_map]
  rfl

theorem lookup_keepFields_rules (members : List (String × Json)) (key : String) :
    (keepFields (forms.map FieldForm.rule) members).lookup key =
      (FieldForm.named? forms key).bind fun form => (members.lookup key).map form.tidy := by
  have found : (forms.map FieldForm.rule).lookup key =
      (FieldForm.named? forms key).map FieldForm.tidy :=
    FieldForm.lookup_map FieldForm.tidy forms key
  rw [lookup_keepFields, found, Option.bind_map]
  rfl

/-- A record is built exactly from the objects that are tidied to the one that is written for it. -/
theorem build_eq_ok_iff (composed : Composed fields forms) {given : Given}
    {members : List (String × Json)} (value : (Json.object members).IsValue)
    (same : ∀ key, given.values.lookup key = members.lookup key) (x : α) :
    fields.build given = .ok x ↔
      (Json.object (forms.map (·.member x))).value? =
        some (tidyObject (forms.map FieldForm.rule) (.object members)) := by
  have values : ∀ name j, given.values.lookup name = some j → j.IsValue := by
    intro name j found
    rw [same, lookup_eq_some_iff_mem (nodup_keys_of_ascending value.ascending)] at found
    exact value.member _ found
  rw [composed.builds given values, tidyObject,
    composed.value?_eq_some_iff (keepFields_ascending value.ascending)]
  -- Names that are not those of fields find nothing on either side.
  constructor
  · intro each key
    rw [lookup_keepFields_rules]
    cases found : FieldForm.named? forms key with
    | none => rfl
    | some form =>
      obtain ⟨listed, rfl⟩ := (FieldForm.named?_eq_some_iff composed.distinct_forms).mp found
      rw [Option.bind_some, Option.bind_some, each form listed, same]
  · intro each form listed
    have found := (FieldForm.named?_eq_some_iff composed.distinct_forms).mpr ⟨listed, rfl⟩
    have here := each form.name
    rw [lookup_keepFields_rules, found, Option.bind_some, Option.bind_some] at here
    rw [← here, same]

end Composed

/-! ## Visiting -/

/-- What lets a visit pass a member: it can be read if it is a field, and need not be one. -/
def Fields.Takes (fields : Fields α) (style : RecordStyle) (name : String) (item : Json) : Prop :=
  match fields.readers.lookup name with
  | none => style.refusesUnknown = false
  | some reader => reader item = .ok ()

/-- Where no key is repeated, a visit goes well if it can pass each member. -/
theorem visit_eq_ok_iff {style : RecordStyle} {fields : Fields α} {members : List (String × Json)}
    (distinct : (members.map Prod.fst).Nodup) {seen : List String}
    (fresh : ∀ member ∈ members, member.1 ∉ seen) :
    visit style fields seen members = .ok () ↔
    ∀ member ∈ members, fields.Takes style member.1 member.2 := by
  induction members generalizing seen with
  | nil => simp [visit]
  | cons first rest ih =>
    obtain ⟨name, item⟩ := first
    obtain ⟨unlike, distinct⟩ := List.nodup_cons.mp distinct
    obtain ⟨unseen, fresh⟩ := List.forall_mem_cons.mp fresh
    rw [visit, List.forall_mem_cons, Fields.Takes]
    cases found : fields.readers.lookup name with
    | none =>
      cases refuses : style.refusesUnknown with
      | true => simp
      | false => simp [ih distinct fresh]
    | some reader =>
      have still : ∀ member ∈ rest, member.1 ∉ name :: seen := by
        intro member listed
        rw [List.mem_cons, not_or]
        exact ⟨fun same => unlike (List.mem_map.mpr ⟨member, listed, same⟩), fresh member listed⟩
      have notSeen : ¬seen.contains name = true := by simpa using unseen
      dsimp only
      rw [if_neg notSeen, bind_eq_ok, ih distinct still]
      exact ⟨fun ⟨(), here, others⟩ => ⟨here, others⟩, fun ⟨here, others⟩ => ⟨(), here, others⟩⟩

/-- An object without repeated keys is read if a visit can pass what each name finds in it, and the
fields are there. -/
theorem record_object_eq_ok_iff {style : RecordStyle} {fields : Fields α}
    {members : List (String × Json)} (distinct : (members.map Prod.fst).Nodup) {x : α} :
    record style fields (.object members) = .ok x ↔
      (∀ name j, members.lookup name = some j → fields.Takes style name j) ∧
        fields.build ⟨members, .missingField⟩ = .ok x := by
  change (visit style fields [] members >>= fun _ => fields.build ⟨members, .missingField⟩) =
    .ok x ↔ _
  have fresh : ∀ member ∈ members, member.1 ∉ ([] : List String) := by simp
  rw [bind_eq_ok, ← forall_mem_iff_lookup distinct, ← visit_eq_ok_iff distinct fresh]
  exact ⟨fun ⟨(), visited, built⟩ => ⟨visited, built⟩, fun ⟨visited, built⟩ => ⟨(), visited, built⟩⟩

/-- A list in which every name finds an item has at least as many of them. -/
theorem length_le_of_lookup_zip {names : List String} (distinct : names.Nodup) {items : List Json}
    (each : ∀ name ∈ names, ∃ j, (names.zip items).lookup name = some j) :
    names.length ≤ items.length := by
  induction names generalizing items with
  | nil => exact Nat.zero_le _
  | cons first names ih =>
    obtain ⟨fresh, distinct⟩ := List.nodup_cons.mp distinct
    obtain ⟨⟨j, found⟩, others⟩ := List.forall_mem_cons.mp each
    cases items with
    | nil => cases found
    | cons item items =>
      apply Nat.succ_le_succ
      apply ih distinct
      intro name listed
      have other : name ≠ first := fun same => fresh (same ▸ listed)
      have found := others name listed
      rwa [List.zip_cons_cons, Dictionary.lookup_cons_ite, if_neg other] at found

/-- On an object without repeated keys nothing but the fields matters. -/
theorem Fields.Heeds.record_object {fields : Fields α} (heeds : fields.Heeds)
    (distinctNames : fields.names.Nodup) {style : RecordStyle}
    (lenient : style.refusesUnknown = false) {members : List (String × Json)}
    (distinct : (members.map Prod.fst).Nodup) (x : α) :
    record style fields (.object members) = .ok x ↔
    fields.build ⟨members, .missingField⟩ = .ok x := by
  rw [record_object_eq_ok_iff distinct, and_iff_right_of_imp]
  intro built name j found
  rw [Fields.Takes]
  split
  next => exact lenient
  next reader listed =>
    have readerListed := (lookup_eq_some_iff_mem distinctNames _ _).mp listed
    exact heeds _ x built _ readerListed j found

theorem Fields.Regular.record_object {fields : Fields α} (regular : fields.Regular)
    {style : RecordStyle} (lenient : style.refusesUnknown = false)
    {members : List (String × Json)} (distinct : (members.map Prod.fst).Nodup) (x : α) :
    record style fields (.object members) = .ok x ↔ fields.build ⟨members, .missingField⟩ = .ok x :=
  regular.checked.heeds.record_object regular.distinct lenient distinct x

/-- A list is read if the record can be built from its items and none is left over. -/
theorem record_array_eq_ok_iff {style : RecordStyle} {fields : Fields α} {items : List Json}
    {x : α} :
    record style fields (.array items) = .ok x ↔
      fields.build ⟨fields.names.zip items, fun _ => .tooShort items.length (.record style.name)
        (if style.countsFields then some fields.readers.length else none)⟩ = .ok x ∧
        items.length ≤ fields.readers.length := by
  apply Iff.trans bind_eq_ok
  constructor
  · rintro ⟨y, built, fits⟩
    split at fits
    · next few =>
      cases fits
      exact ⟨built, few⟩
    · cases fits
  · rintro ⟨built, few⟩
    exact ⟨x, built, if_pos few⟩

namespace Composed

variable {fields : Fields α} {forms : List (FieldForm α)} {style : RecordStyle}

/-- A list must have an item for each field. -/
theorem record_array (composed : Composed fields forms) (items : List Json) :
    ∃ absent, ∀ x, record style fields (.array items) = .ok x ↔
      items.length = forms.length ∧
      fields.build ⟨(forms.map FieldForm.name).zip items, absent⟩ = .ok x := by
  have count : fields.readers.length = forms.length := by
    simpa [Fields.names] using congrArg List.length composed.names
  refine ⟨fun _ => .tooShort items.length (.record style.name)
    (if style.countsFields then some fields.readers.length else none), fun x => ?_⟩
  rw [record_array_eq_ok_iff, ← composed.names]
  constructor
  · rintro ⟨built, few⟩
    have many : fields.names.length ≤ items.length := by
      apply length_le_of_lookup_zip composed.distinct
      intro name listed
      obtain ⟨reader, member, rfl⟩ := List.mem_map.mp listed
      obtain ⟨j, found, _⟩ := composed.checked _ _ built reader member
      exact ⟨j, found⟩
    rw [Fields.names, List.length_map] at many
    exact ⟨by omega, built⟩
  · rintro ⟨length, built⟩
    exact ⟨built, by omega⟩

/-- The entries of a list that has an item for each field find what the list finds. -/
theorem array_build_eq_ok_iff (composed : Composed fields forms) {items : List Json}
    (value : (Json.array items).IsValue) (length : items.length = forms.length)
    (absent : String → DecodeError) (x : α) :
    fields.build ⟨(forms.map FieldForm.name).zip items, absent⟩ = .ok x ↔
      (Json.object (forms.map (·.member x))).value? =
        some (tidyRecord (forms.map FieldForm.rule) (.array items)) := by
  have names : (forms.map FieldForm.rule).map Prod.fst = forms.map FieldForm.name := by
    rw [List.map_map]
    rfl
  have distinct : (((forms.map FieldForm.name).zip items).map Prod.fst).Nodup := by
    rw [List.map_fst_zip (by simp [length])]
    exact composed.distinct_forms
  have entries :
      (Json.object (Dictionary.ofList ((forms.map FieldForm.name).zip items)).entries).IsValue := by
    apply Json.IsValue.object (Dictionary.ofList _).ascending
    intro member listed
    exact value.item _ (List.of_mem_zip (Dictionary.mem_ofList listed)).2
  have loose : tidyRecord (forms.map FieldForm.rule) (.array items) =
      tidyObject (forms.map FieldForm.rule)
        (.object (Dictionary.ofList ((forms.map FieldForm.name).zip items)).entries) := by
    rw [tidyRecord, asObject, names, if_pos (by rw [length, List.length_map])]
  rw [loose]
  apply composed.build_eq_ok_iff entries
  intro key
  exact (Dictionary.lookup_ofList distinct key).symm

theorem tidyObject_written (composed : Composed fields forms) {x : α} {v : Json}
    (written : (Json.object (forms.map (·.member x))).value? = some v) :
    tidyObject (forms.map FieldForm.rule) v = v := by
  obtain ⟨entries, same⟩ := FieldForm.value?_object forms x
  cases written.symm.trans same
  have ascending := (Json.isValue_of_value? written).ascending
  have found := (composed.value?_eq_some_iff ascending x).mp written
  rw [tidyObject, Json.object.injEq]
  apply eq_of_lookup (keepFields_ascending ascending) ascending
  intro key
  rw [lookup_keepFields_rules, found key]
  cases FieldForm.named? forms key with
  | none => rfl
  | some form =>
    obtain ⟨v, written⟩ := form.denotes x
    simp [written, form.tidied x v written]

/-- The decoder of a record is lawful if those of its fields are. -/
theorem lawful (composed : Composed fields forms) (lenient : style.refusesUnknown = false) :
    Lawful (record style fields) (tidyRecord (forms.map FieldForm.rule))
      (fun x => .object (forms.map (·.member x))) where
  denotes x := by
    obtain ⟨entries, written⟩ := FieldForm.value?_object forms x
    exact ⟨.object entries, written⟩
  accepts {v} value x := by
    obtain ⟨entries, written⟩ := FieldForm.value?_object forms x
    cases v with
    | object members =>
      rw [composed.record_object lenient (nodup_keys_of_ascending value.ascending)]
      exact composed.build_eq_ok_iff value (fun _ => rfl) x
    | array items =>
      obtain ⟨absent, taken⟩ := @record_array _ _ _ style composed items
      rw [taken]
      by_cases length : items.length = forms.length
      · rw [and_iff_right length]
        exact composed.array_build_eq_ok_iff value length absent x
      · simp [length, written, tidyRecord, asObject, tidyObject]
    | _ => simp [record, written, tidyRecord, asObject, tidyObject]
  tidied x v written := by
    have object := composed.tidyObject_written written
    obtain ⟨entries, same⟩ := FieldForm.value?_object forms x
    cases written.symm.trans same
    exact object

end Composed

end ChangeStream.Codec
