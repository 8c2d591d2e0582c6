import ChangeStream.Proofs.Codec.Records

/-!
# Trees that are read like their values

A decoder may be given a tree as it stands in a text, or the value that the tree denotes. The two
differ where an object names a key twice: the tree has both members, the value the last of them. A
tree is clear, by the rules of a type, if that makes no difference: the objects that are read as
records or variants name no key twice, and in those that are read as dictionaries of texts
everything that is overridden is a text. Objects that nothing reads may name keys as they like.
-/

namespace ChangeStream.Codec

/-! ## Clear trees -/

/-- No demands. -/
def anything : Json → Prop := fun _ => True

/-- What is overridden by a later member of the same key is a text. -/
def clearDictionary : Json → Prop
  | .object members =>
    members.Pairwise fun earlier later => earlier.1 = later.1 → ∃ s, earlier.2 = .string s
  | _ => True

/-- What the rules for a name say of a tree. -/
def ruledBy (rules : List (String × (Json → Prop))) (name : String) (j : Json) : Prop :=
  ∀ rule ∈ rules, rule.1 = name → rule.2 j

theorem ruledBy.clear {rules : List (String × (Json → Prop))} {name : String}
    {clear : Json → Prop} {j : Json} (ruled : ruledBy rules name j)
    (listed : (name, clear) ∈ rules) : clear j :=
  ruled _ listed rfl

/-- What stands under a name is clear by the rules for it. -/
def ClearMembers (rules : List (String × (Json → Prop))) (members : List (String × Json)) : Prop :=
  ∀ name j, members.lookup name = some j → ruledBy rules name j

/-- No key is named twice, and what the fields are read from is clear. The items of a list stand for
the fields in their order. -/
def clearRecord (rules : List (String × (Json → Prop))) : Json → Prop
  | .object members => (members.map Prod.fst).Nodup ∧ ClearMembers rules members
  | .array items => ClearMembers rules ((rules.map Prod.fst).zip items)
  | _ => True

/-- No key is named twice, and the content of a variant is clear. -/
def clearVariant (rules : List (String × (Json → Prop))) : Json → Prop
  | .object members => (members.map Prod.fst).Nodup ∧ ClearMembers rules members
  | _ => True

/-! ## Scalars and collections -/

/-- A decoder reads every clear tree as it reads the value of the tree. -/
structure ReadsAlike {α : Type} (decode : Decoder α) (clear : Json → Prop) : Prop where
  alike :
    ∀ {tree v}, tree.value? = some v → clear tree → ∀ x, decode tree = .ok x ↔ decode v = .ok x

variable {α β : Type}

namespace ReadsAlike

theorem mono {decode : Decoder α} {clear stricter : Json → Prop} (reads : ReadsAlike decode clear)
    (implies : ∀ j, stricter j → clear j) : ReadsAlike decode stricter where
  alike denoted strict x := reads.alike denoted (implies _ strict) x

theorem map {decode : Decoder α} {clear : Json → Prop} (reads : ReadsAlike decode clear)
    (f : α → β) :
    ReadsAlike (fun j => (decode j).map f) clear where
  alike denoted ok y := by simp only [map_eq_ok, reads.alike denoted ok]

theorem text : ReadsAlike text anything where
  alike denoted _ s := by
    cases Json.denotes_of_value? denoted <;> simp [Codec.text]

theorem number (width : Width) : ReadsAlike (number width) anything where
  alike denoted _ n := by
    cases Json.denotes_of_value? denoted <;> simp [Codec.number]

theorem byte : ReadsAlike byte anything :=
  (number .byte).map _

theorem optional {decode : Decoder α} {clear : Json → Prop} (reads : ReadsAlike decode clear) :
    ReadsAlike (optional decode) clear where
  alike {tree v} denoted ok x := by
    have inner := (reads.map some).alike denoted ok x
    cases Json.denotes_of_value? denoted with
    | same => rfl
    | array each => exact inner
    | object each => exact inner

theorem mapM {decode : Decoder α} (reads : ReadsAlike decode anything) {items values : List Json}
    (each : Json.valueItems? items = some values) (xs : List α) :
    items.mapM decode = .ok xs ↔ values.mapM decode = .ok xs := by
  induction items generalizing values xs with
  | nil =>
    cases each
    rfl
  | cons item items ih =>
    obtain ⟨v, hv, values, hvalues, rfl⟩ := Json.valueItems?_cons_eq_some.mp each
    simp only [mapM_cons_eq_ok, reads.alike hv trivial, ih hvalues]

theorem list {decode : Decoder α} (reads : ReadsAlike decode anything) :
    ReadsAlike (list decode) anything where
  alike denoted _ xs := by
    cases Json.denotes_of_value? denoted with
    | same => rfl
    | object each => simp [Codec.list]
    | array each => exact reads.mapM each xs

end ReadsAlike

/-- If what stands in the end and what was overridden are texts, then all members are. -/
theorem exists_texts {members values : List (String × Json)}
    (overridden : members.Pairwise fun earlier later =>
      earlier.1 = later.1 → ∃ s, earlier.2 = .string s)
    (each : Json.valueMembers? members = some values)
    (standing : ∀ key v, (Dictionary.ofList values).get? key = some v → ∃ s, v = .string s) :
    ∃ pairs : List (String × String), members = pairs.map fun e => (e.1, .string e.2) := by
  induction members generalizing values with
  | nil => exact ⟨[], rfl⟩
  | cons first rest ih =>
    obtain ⟨key, j⟩ := first
    obtain ⟨here, overridden⟩ := List.pairwise_cons.mp overridden
    obtain ⟨v, hv, values, hvalues, rfl⟩ := Json.valueMembers?_cons_eq_some.mp each
    simp only [Dictionary.get?_ofList_reverse, List.reverse_cons, List.lookup_append,
      Dictionary.lookup_cons_ite, List.lookup_nil] at standing ih
    obtain ⟨pairs, rfl⟩ :=
      ih overridden hvalues fun k w found => standing k w (by rw [found, Option.some_or])
    have text : ∃ s, j = .string s := by
      cases last : values.reverse.lookup key with
      | none =>
        obtain ⟨s, rfl⟩ := standing key v (by rw [last, Option.none_or, if_pos rfl])
        exact ⟨s, Json.eq_string_of_value? hv⟩
      | some w =>
        have again : key ∈ values.reverse.map Prod.fst := by
          rw [← isSome_lookup_iff, last]
          rfl
        rw [List.map_reverse, List.mem_reverse, Json.valueMembers?_keys hvalues] at again
        obtain ⟨later, listed, same⟩ := List.mem_map.mp again
        exact here later listed same.symm
    obtain ⟨s, rfl⟩ := text
    exact ⟨(key, s) :: pairs, rfl⟩

theorem ReadsAlike.dictionary : ReadsAlike dictionary clearDictionary where
  alike denoted overridden d := by
    cases Json.denotes_of_value? denoted with
    | same => rfl
    | array each => simp [Codec.dictionary]
    | @object members values each =>
      simp only [Codec.dictionary, map_eq_ok, mapM_text]
      constructor
      · rintro ⟨pairs, rfl, rfl⟩
        cases each.symm.trans (valueMembers?_texts pairs)
        exact ⟨_, Dictionary.entries_ofList_map _ _, Dictionary.ofList_entries _⟩
      · rintro ⟨entries, standing, rfl⟩
        have texts :
            ∀ key v, (Dictionary.ofList values).get? key = some v → ∃ s, v = .string s := by
          intro key v found
          rw [Dictionary.get?, standing, Dictionary.lookup_map_snd] at found
          obtain ⟨s, -, rfl⟩ := Option.map_eq_some_iff.mp found
          exact ⟨s, rfl⟩
        obtain ⟨pairs, rfl⟩ := exists_texts overridden each texts
        cases each.symm.trans (valueMembers?_texts pairs)
        rw [Dictionary.entries_ofList_map] at standing
        have injective : Function.Injective fun entry : String × String =>
            (entry.1, Json.string entry.2) := by
          rintro ⟨_, _⟩ ⟨_, _⟩ same
          cases same
          rfl
        refine ⟨pairs, rfl, ?_⟩
        rw [← Dictionary.ofList_entries (Dictionary.ofList pairs), injective.list_map standing]

/-! ## Records -/

/-- The fields of a record are read alike from what stands under their names. -/
structure Fields.Alike (fields : Fields α) (rules : List (String × (Json → Prop))) : Prop where
  names : fields.names = rules.map Prod.fst
  readers : ∀ reader ∈ fields.readers, ReadsAlike reader.2 (ruledBy rules reader.1)
  builds :
    ∀ {given values : Given}, Json.MembersDenote given.values values.values →
    ClearMembers rules given.values →
    ∀ x, fields.build given = .ok x ↔ fields.build values = .ok x

namespace Fields.Alike

/-- Under the name of a field either nothing stands on both sides or what is read alike. -/
theorem under {name : String} {decode : Decoder α} {clear : Json → Prop}
    (reads : ReadsAlike decode clear) {members values : List (String × Json)}
    (denote : Json.MembersDenote members values) (ruled : ClearMembers [(name, clear)] members) :
    (members.lookup name = none ∧ values.lookup name = none) ∨
      ∃ j v, members.lookup name = some j ∧ values.lookup name = some v ∧
      ∀ x, decode j = .ok x ↔ decode v = .ok x := by
  have same := denote name
  have here := ruled name
  generalize members.lookup name = item, values.lookup name = value at same here
  cases same with
  | none => exact .inl ⟨rfl, rfl⟩
  | some denoted =>
    exact .inr ⟨_, _, rfl, rfl, reads.alike denoted ((here _ rfl).clear List.mem_cons_self)⟩

theorem field {name : String} {decode : Decoder α} {clear : Json → Prop}
    (reads : ReadsAlike decode clear) :
    (field name decode).Alike [(name, clear)] where
  names := rfl
  readers := by
    simp only [Codec.field, List.forall_mem_singleton]
    exact (reads.map _).mono fun _ ruled => ruled.clear List.mem_cons_self
  builds denote ruled x := by
    rcases under reads denote ruled with ⟨missing, absent⟩ | ⟨j, v, hj, hv, same⟩
    · simp [Codec.field, missing, absent]
    · simpa only [Codec.field, hj, hv] using same x

theorem fieldOr {name : String} {standard : α} {decode : Decoder α} {clear : Json → Prop}
    (reads : ReadsAlike decode clear) : (fieldOr name standard decode).Alike [(name, clear)] where
  names := rfl
  readers := (field reads).readers
  builds denote ruled x := by
    rcases under reads denote ruled with ⟨missing, absent⟩ | ⟨j, v, hj, hv, same⟩
    · simp [Codec.fieldOr, missing, absent]
    · simpa only [Codec.fieldOr, hj, hv] using same x

variable {rules others : List (String × (Json → Prop))}

theorem ruledBy_of_append_left {name : String} {j : Json}
    (ruled : ruledBy (rules ++ others) name j) :
    ruledBy rules name j :=
  fun rule listed => ruled rule (List.mem_append_left _ listed)

theorem ruledBy_of_append_right {name : String} {j : Json}
    (ruled : ruledBy (rules ++ others) name j) :
    ruledBy others name j :=
  fun rule listed => ruled rule (List.mem_append_right _ listed)

theorem seq {f : Fields (α → β)} {fields : Fields α} (first : f.Alike rules)
    (second : fields.Alike others) :
    (f <*> fields).Alike (rules ++ others) where
  names := by
    rw [List.map_append, ← first.names, ← second.names]
    exact List.map_append
  readers reader listed := by
    rcases List.mem_append.mp listed with before | after
    · exact (first.readers reader before).mono fun _ => ruledBy_of_append_left
    · exact (second.readers reader after).mono fun _ => ruledBy_of_append_right
  builds denote clear y := by
    have left := first.builds denote fun name j found => ruledBy_of_append_left (clear name j found)
    have right :=
      second.builds denote fun name j found => ruledBy_of_append_right (clear name j found)
    simp only [build_seq, left, right]

theorem map {fields : Fields α} (alike : fields.Alike rules) (f : α → β) :
    (f <$> fields).Alike rules where
  names := alike.names
  readers := alike.readers
  builds denote clear y := by simp only [build_map, alike.builds denote clear]

theorem andThen {fields : Fields α} (alike : fields.Alike rules) (finish : α → Decoded β) :
    (fields.andThen finish).Alike rules where
  names := alike.names
  readers := alike.readers
  builds denote clear y := by simp only [Fields.andThen, bind_eq_ok, alike.builds denote clear]

variable {fields : Fields α} {style : RecordStyle}

theorem takes_iff (alike : fields.Alike rules) {name : String} {j v : Json}
    (denoted : j.value? = some v) (clear : ruledBy rules name j) :
    fields.Takes style name j ↔ fields.Takes style name v := by
  rw [Takes, Takes]
  cases found : fields.readers.lookup name with
  | none => rfl
  | some reader =>
    obtain ⟨_, _, readers, _⟩ := List.lookup_eq_some_iff.mp found
    have listed : (name, reader) ∈ fields.readers := by simp [readers]
    exact (alike.readers _ listed).alike denoted clear ()

/-- A visit of members passes if one of their values does. -/
theorem forall_takes_iff (alike : fields.Alike rules) {members values : List (String × Json)}
    (denote : Json.MembersDenote members values) (clear : ClearMembers rules members) :
    (∀ name j, members.lookup name = some j → fields.Takes style name j) ↔
      ∀ name v, values.lookup name = some v → fields.Takes style name v := by
  apply forall_congr'
  intro name
  have same := denote name
  have here := clear name
  generalize members.lookup name = item, values.lookup name = value at same here
  cases same with
  | none => simp
  | some denoted => simpa using alike.takes_iff denoted (here _ rfl)

end Fields.Alike

/-- A record is read alike if its fields are. -/
theorem ReadsAlike.record {fields : Fields α} {rules : List (String × (Json → Prop))}
    (alike : fields.Alike rules) (style : RecordStyle) :
    ReadsAlike (record style fields) (clearRecord rules) where
  alike denoted clear x := by
    cases Json.denotes_of_value? denoted with
    | same => rfl
    | @object members values each =>
      obtain ⟨distinct, ruled⟩ := clear
      have denote := Json.membersDenote_entries distinct each
      have built : fields.build ⟨members, .missingField⟩ = .ok x ↔
          fields.build ⟨(Dictionary.ofList values).entries, .missingField⟩ = .ok x :=
            alike.builds denote ruled x
      rw [record_object_eq_ok_iff distinct,
        record_object_eq_ok_iff (nodup_keys_of_ascending (Dictionary.ascending _)),
        alike.forall_takes_iff denote ruled, built]
    | @array items values each =>
      rw [clearRecord, ← alike.names] at clear
      have built : ∀ absent absent' y, fields.build ⟨fields.names.zip items, absent⟩ = .ok y ↔
          fields.build ⟨fields.names.zip values, absent'⟩ = .ok y :=
        fun _ _ y => alike.builds (Json.membersDenote_zip each fields.names) clear y
      apply Iff.trans bind_eq_ok
      apply Iff.trans _ bind_eq_ok.symm
      rw [Json.length_of_valueItems? each]
      exact exists_congr fun y => and_congr_left fun _ => built _ _ y

/-! ## Variants -/

section Variants

variable {variants : List (String × Content α)} {rules : List (String × (Json → Prop))}

/-- An object in which two names find something names no variant. -/
theorem variant_of_two {members : List (String × Json)} {a b : String} (other : a ≠ b)
    (first : (members.lookup a).isSome = true) (second : (members.lookup b).isSome = true) :
    variant variants (.object members) = .error .notOneVariant := by
  match members with
  | [] => cases first
  | [(name, content)] =>
    simp only [isSome_lookup_iff, List.map_cons, List.map_nil, List.mem_singleton] at first second
    exact absurd (first.trans second.symm) other
  | _ :: _ :: _ => rfl

theorem Content.bare_alike (y : α) (clear : Json → Prop) :
    ReadsAlike (fun j => (bare y).read (some j)) clear where
  alike denoted _ x := by
    cases Json.denotes_of_value? denoted with
    | same => rfl
    | array each => simp [Content.read]
    | object each => simp [Content.read]

/-- A value of a type with variants is read alike if their contents are. -/
theorem ReadsAlike.variant (contents : ∀ variant ∈ variants,
    ReadsAlike (fun j => variant.2.read (some j)) (ruledBy rules variant.1)) :
    ReadsAlike (variant variants) (clearVariant rules) where
  alike denoted clear x := by
    cases Json.denotes_of_value? denoted with
    | same => rfl
    | array each => simp [Codec.variant]
    | @object members values each =>
      obtain ⟨distinct, ruled⟩ := clear
      match members with
      | [] =>
        cases each
        rfl
      | [(name, item)] =>
        obtain ⟨v, hv, _, hrest, rfl⟩ := Json.valueMembers?_cons_eq_some.mp each
        cases hrest
        change variant.choose variants name (some item) = .ok x ↔
          variant.choose variants name (some v) = .ok x
        rw [variant.choose, variant.choose]
        cases found : variants.lookup name with
        | none => rfl
        | some content =>
          obtain ⟨_, _, list, _⟩ := List.lookup_eq_some_iff.mp found
          have listed : (name, content) ∈ variants := by simp [list]
          exact (contents _ listed).alike hv (ruled name item (by simp)) x
      | (a, _) :: (b, _) :: rest =>
        have other : a ≠ b := by
          simp only [List.map_cons, List.nodup_cons, List.mem_cons, not_or] at distinct
          exact distinct.1.1
        have keys : ∀ name, ((Dictionary.ofList values).entries.lookup name).isSome = true ↔
            name ∈ a :: b :: rest.map Prod.fst := by
          intro name
          rw [Dictionary.lookup_ofList (Json.valueMembers?_keys each ▸ distinct), isSome_lookup_iff,
            Json.valueMembers?_keys each]
          rfl
        rw [variant_of_two other ((keys a).mpr (by simp)) ((keys b).mpr (by simp))]
        rfl

end Variants

end ChangeStream.Codec
