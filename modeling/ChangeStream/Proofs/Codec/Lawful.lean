import ChangeStream.Codec.Decoder
import ChangeStream.Proofs.Json.Value

/-!
# Loose forms

A decoder takes more than what is written: a list may stand for a record, an object may have members
that no field is named after, and a variant without content may be given null for it. To tidy a JSON
value is to take each of these loose forms back to what is written. It goes by the form of a type
and knows nothing of decoders. A decoder is lawful if the values that it takes are the ones that
tidying takes to the value of something written, of just what it gives.
-/

namespace ChangeStream.Codec

/-! ## Tidying -/

/-- The object that a list stands for, if it has an item for each field. -/
def asObject (names : List String) : Json → Json
  | .array items =>
    if items.length = names.length then .object (Dictionary.ofList (names.zip items)).entries
      else .array items
  | j => j

/-- The members that are fields, tidied. -/
def keepFields (rules : List (String × (Json → Json)))
    (members : List (String × Json)) : List (String × Json) :=
  members.filterMap fun member => (rules.lookup member.1).map fun tidy => (member.1, tidy member.2)

/-- Drops the members of an object that are no fields and tidies the others. -/
def tidyObject (rules : List (String × (Json → Json))) : Json → Json
  | .object members => .object (keepFields rules members)
  | j => j

/-- Tidies a record: rules for its fields, in the order of declaration. -/
def tidyRecord (rules : List (String × (Json → Json))) (j : Json) : Json :=
  tidyObject rules (asObject (rules.map Prod.fst) j)

/-- Tidies an object with one key by the rule for the variant of that name: a rule for its content,
or none if the variant holds nothing. -/
def tidyCase (name : String) : Option (Option (Json → Json)) → Json → Json
  | some none, .null => .string name
  | some (some tidy), content => .object [(name, tidy content)]
  | _, content => .object [(name, content)]

/-- Tidies a variant. -/
def tidyVariant (rules : List (String × Option (Json → Json))) : Json → Json
  | .object [(name, content)] => tidyCase name (rules.lookup name) content
  | j => j

/-! ## Lawful decoders -/

/-- A decoder takes a value exactly if tidying makes it the value of something written,
and gives that. -/
structure Lawful {α : Type} (decode : Decoder α) (tidy : Json → Json)
    (write : α → Json) : Prop where
  denotes : ∀ x, ∃ v, (write x).value? = some v
  accepts : ∀ {v}, v.IsValue → ∀ x, decode v = .ok x ↔ (write x).value? = some (tidy v)
  tidied : ∀ x v, (write x).value? = some v → tidy v = v

variable {α β : Type}

theorem map_eq_ok {f : α → β} {outcome : Decoded α} {y : β} :
    outcome.map f = .ok y ↔ ∃ x, outcome = .ok x ∧ f x = y := by
  cases outcome <;> simp [Except.map]

theorem bind_eq_ok {outcome : Decoded α} {next : α → Decoded β} {y : β} :
    (outcome >>= next) = .ok y ↔ ∃ x, outcome = .ok x ∧ next x = .ok y := by
  cases outcome <;> simp [bind, Except.bind]

/-- What was written is read back from its value. -/
theorem Lawful.ofTree?_write {decode : Decoder α} {tidy : Json → Json} {write : α → Json}
    (law : Lawful decode tidy write) (x : α) : ofTree? decode (write x) = some (.ok x) := by
  obtain ⟨v, hv⟩ := law.denotes x
  have taken : decode v = .ok x := by
    rw [law.accepts (Json.isValue_of_value? hv), hv, law.tidied x v hv]
  rw [ofTree?, hv, Option.map_some, taken]

theorem Lawful.equiv {decode : Decoder α} {tidy : Json → Json} {write : α → Json}
    (law : Lawful decode tidy write) {f : α → β} {g : β → α} (inverse : ∀ a b, f a = b ↔ a = g b) :
    Lawful (fun j => (decode j).map f) tidy (write ∘ g) where
  denotes x := law.denotes (g x)
  accepts value x := by
    rw [Function.comp_apply, ← law.accepts value, map_eq_ok]
    simp [inverse]
  tidied x v hv := law.tidied (g x) v hv

/-! ## Scalars and collections -/

theorem text_eq_ok {j : Json} {s : String} : text j = .ok s ↔ j = .string s := by
  cases j <;> simp [text]

theorem text_lawful : Lawful text id .string where
  denotes s := ⟨.string s, rfl⟩
  accepts _ s := by
    rw [text_eq_ok, Json.value?, Option.some.injEq, id, eq_comm]
  tidied _ _ _ := rfl

theorem byte_natural {n : Nat} {b : UInt8} : byte (.number (.natural n)) = .ok b ↔ n = b.toNat := by
  have limit : Width.byte.limit = 256 := by decide
  rw [byte, number, limit]
  split
  · next fits =>
    rw [Except.map, Except.ok.injEq, ← UInt8.toNat_inj, UInt8.toNat_ofNat_of_lt' fits]
  · next large =>
    have small := b.toNat_lt
    simp only [Except.map, reduceCtorEq, false_iff]
    omega

theorem byte_lawful : Lawful byte id fun b => .number (.natural b.toNat) where
  denotes b := ⟨_, rfl⟩
  accepts {v} value b := by
    cases v with
    | number n =>
      cases n with
      | natural n =>
        rw [byte_natural]
        simp [Json.value?, eq_comm]
      | negative n => simp [byte, number, Except.map, Json.value?]
      | float x => simp [byte, number, Except.map, Json.value?]
    | _ => simp [byte, number, Except.map, Json.value?]
  tidied _ _ _ := rfl

theorem mapM_cons_eq_ok {γ : Type} {f : γ → Decoded α} {item : γ} {items : List γ} {xs : List α} :
    (item :: items).mapM f = .ok xs ↔
    ∃ x, f item = .ok x ∧ ∃ rest, items.mapM f = .ok rest ∧ x :: rest = xs := by
  rw [List.mapM_cons]
  simp only [bind_eq_ok, pure, Except.pure, Except.ok.injEq]

theorem Lawful.mapM {decode : Decoder α} {write : α → Json} (law : Lawful decode id write)
    {items : List Json} (values : ∀ item ∈ items, item.IsValue) (xs : List α) :
    items.mapM decode = .ok xs ↔ Json.valueItems? (xs.map write) = some items := by
  induction items generalizing xs with
  | nil =>
    cases xs with
    | nil => exact iff_of_true rfl rfl
    | cons x xs =>
      rw [List.map_cons, Json.valueItems?_cons_eq_some]
      simp [pure, Except.pure]
  | cons item items ih =>
    obtain ⟨value, values⟩ := List.forall_mem_cons.mp values
    rw [mapM_cons_eq_ok]
    cases xs with
    | nil => simp [Json.valueItems?]
    | cons x xs =>
      rw [List.map_cons, Json.valueItems?_cons_eq_some]
      simp [law.accepts value, ih values]

theorem list_lawful {decode : Decoder α} {write : α → Json} (law : Lawful decode id write) :
    Lawful (list decode) id fun xs => .array (xs.map write) where
  denotes xs := by
    have each : ∀ item ∈ xs.map write, ∃ v, item.value? = some v := by
      simpa using fun x _ => law.denotes x
    obtain ⟨values, hvalues⟩ := Json.exists_valueItems? each
    exact ⟨.array values, by rw [Json.value?, hvalues, Option.map_some]⟩
  accepts {v} value xs := by
    cases v with
    | array items =>
      simp [list, law.mapM value.item, Json.value?]
    | _ => simp [list, Json.value?]
  tidied _ _ _ := rfl

theorem valueMembers?_texts (entries : List (String × String)) :
    Json.valueMembers? (entries.map fun e => (e.1, .string e.2)) =
      some (entries.map fun e => (e.1, .string e.2)) := by
  induction entries with
  | nil => rfl
  | cons e entries ih =>
    rw [List.map_cons, Json.valueMembers?_cons_eq_some]
    exact ⟨_, rfl, _, ih, rfl⟩

theorem value?_texts (d : Dictionary String) :
    (Json.object (d.entries.map fun e => (e.1, .string e.2))).value? =
      some (.object (d.entries.map fun e => (e.1, .string e.2))) := by
  have ascending : (d.entries.map fun e => (e.1, Json.string e.2)).Pairwise fun a b => a.1 < b.1 :=
    List.pairwise_map.mpr d.ascending
  rw [Json.value?, valueMembers?_texts, Option.map_some, Dictionary.ofList_entries ⟨_, ascending⟩]

theorem mapM_text {members : List (String × Json)} {pairs : List (String × String)} :
    (members.mapM fun member : String × Json => (text member.2).map (member.1, ·)) = .ok pairs ↔
      members = pairs.map fun e => (e.1, .string e.2) := by
  induction members generalizing pairs with
  | nil => cases pairs <;> simp [pure, Except.pure]
  | cons member members ih =>
    rw [mapM_cons_eq_ok]
    cases pairs with
    | nil => simp
    | cons e pairs =>
      simp only [map_eq_ok, text_eq_ok, ih, List.map_cons, List.cons.injEq, Prod.ext_iff]
      grind

/-- An object of texts is read as the dictionary of its members. -/
theorem dictionary_texts (pairs : List (String × String)) :
    dictionary (.object (pairs.map fun e => (e.1, .string e.2))) =
      .ok (Dictionary.ofList pairs) := by
  rw [dictionary, mapM_text.mpr rfl, Except.map]

theorem dictionary_lawful :
    Lawful dictionary id fun d => .object (d.entries.map fun e => (e.1, .string e.2)) where
  denotes d := ⟨_, value?_texts d⟩
  accepts {v} value d := by
    rw [value?_texts]
    cases v with
    | object members =>
      rw [dictionary, id, Option.some.injEq, Json.object.injEq, map_eq_ok]
      constructor
      · rintro ⟨pairs, read, rfl⟩
        have members_eq := mapM_text.mp read
        have ascending : pairs.Pairwise fun a b => a.1 < b.1 := by
          simpa [members_eq, List.pairwise_map] using value.ascending
        rw [members_eq, Dictionary.ofList_entries ⟨pairs, ascending⟩]
      · intro written
        exact ⟨d.entries, mapM_text.mpr written.symm, Dictionary.ofList_entries d⟩
    | _ => simp [dictionary]
  tidied _ _ _ := rfl

end ChangeStream.Codec
