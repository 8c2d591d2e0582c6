import ChangeStream.Json.Basic
import ChangeStream.Proofs.Dictionary

/-!
# JSON values

A JSON value is a tree that denotes something and has the keys of every object in ascending order,
each of them once. What a tree denotes is one.
-/

namespace ChangeStream.Json

/-- Trees that are values: their objects are dictionaries. -/
inductive IsValue : Json → Prop
  | null : IsValue .null
  | bool (value : Bool) : IsValue (.bool value)
  | number (n : Number) : IsValue (.number n)
  | string (s : String) : IsValue (.string s)
  | array {items : List Json} (each : ∀ item ∈ items, IsValue item) : IsValue (.array items)
  | object {members : List (String × Json)} (ascending : members.Pairwise fun a b => a.1 < b.1)
      (each : ∀ member ∈ members, IsValue member.2) : IsValue (.object members)

theorem IsValue.item {items : List Json} (value : IsValue (.array items)) :
    ∀ item ∈ items, IsValue item := by
  cases value
  assumption

theorem IsValue.ascending {members : List (String × Json)} (value : IsValue (.object members)) :
    members.Pairwise fun a b => a.1 < b.1 := by
  cases value
  assumption

theorem IsValue.member {members : List (String × Json)} (value : IsValue (.object members)) :
    ∀ member ∈ members, IsValue member.2 := by
  cases value
  assumption

theorem valueItems?_cons_eq_some {item : Json} {items values : List Json} :
    valueItems? (item :: items) = some values ↔
      ∃ v, item.value? = some v ∧ ∃ rest, valueItems? items = some rest ∧ v :: rest = values := by
  simp [valueItems?, Option.bind_eq_some_iff]

theorem valueMembers?_cons_eq_some {key : String} {item : Json}
    {members values : List (String × Json)} :
    valueMembers? ((key, item) :: members) = some values ↔
      ∃ v, item.value? = some v ∧
      ∃ rest, valueMembers? members = some rest ∧ (key, v) :: rest = values := by
  simp [valueMembers?, Option.bind_eq_some_iff]

mutual

theorem isValue_of_value? : ∀ {tree v : Json}, tree.value? = some v → v.IsValue
  | .null, _, denotes | .bool _, _, denotes | .number _, _, denotes | .string _, _, denotes => by
    cases denotes
    constructor
  | .array items, _, denotes => by
    rw [value?, Option.map_eq_some_iff] at denotes
    obtain ⟨values, hvalues, rfl⟩ := denotes
    exact .array (isValue_of_valueItems? hvalues)
  | .object members, _, denotes => by
    rw [value?, Option.map_eq_some_iff] at denotes
    obtain ⟨values, hvalues, rfl⟩ := denotes
    exact .object (Dictionary.ofList values).ascending fun member listed =>
      isValue_of_valueMembers? hvalues member (Dictionary.mem_ofList listed)
  | .meaningless, _, denotes => by
    cases denotes

theorem isValue_of_valueItems? : ∀ {items values : List Json}, valueItems? items = some values →
    ∀ value ∈ values, IsValue value
  | [], _, denotes => by
    cases denotes
    simp
  | item :: items, _, denotes => by
    obtain ⟨v, hv, values, hvalues, rfl⟩ := valueItems?_cons_eq_some.mp denotes
    exact List.forall_mem_cons.mpr ⟨isValue_of_value? hv, isValue_of_valueItems? hvalues⟩

theorem isValue_of_valueMembers? :
    ∀ {members values : List (String × Json)}, valueMembers? members = some values →
    ∀ value ∈ values, IsValue value.2
  | [], _, denotes => by
    cases denotes
    simp
  | (key, item) :: members, _, denotes => by
    obtain ⟨v, hv, values, hvalues, rfl⟩ := valueMembers?_cons_eq_some.mp denotes
    exact List.forall_mem_cons.mpr ⟨isValue_of_value? hv, isValue_of_valueMembers? hvalues⟩

end

/-- How a tree and what it denotes are alike: they differ in arrays and objects alone. -/
inductive Denotes : Json → Json → Prop
  | same (tree : Json) : Denotes tree tree
  | array {items values : List Json} (each : valueItems? items = some values) :
      Denotes (.array items) (.array values)
  | object {members values : List (String × Json)} (each : valueMembers? members = some values) :
      Denotes (.object members) (.object (Dictionary.ofList values).entries)

theorem denotes_of_value? {tree v : Json} (denoted : tree.value? = some v) : Denotes tree v := by
  cases tree with
  | array items =>
    obtain ⟨values, each, rfl⟩ := Option.map_eq_some_iff.mp denoted
    exact .array each
  | object members =>
    obtain ⟨values, each, rfl⟩ := Option.map_eq_some_iff.mp denoted
    exact .object each
  | meaningless => cases denoted
  | _ =>
    cases denoted
    exact .same _

theorem eq_string_of_value? {tree : Json} {s : String} (denoted : tree.value? = some (.string s)) :
    tree = .string s := by
  cases denotes_of_value? denoted
  rfl

theorem valueMembers?_keys {members values : List (String × Json)}
    (denotes : valueMembers? members = some values) :
    values.map Prod.fst = members.map Prod.fst := by
  induction members generalizing values with
  | nil =>
    cases denotes
    rfl
  | cons first rest ih =>
    obtain ⟨key, item⟩ := first
    obtain ⟨v, hv, values, hvalues, rfl⟩ := valueMembers?_cons_eq_some.mp denotes
    rw [List.map_cons, List.map_cons, ih hvalues]

theorem lookup_valueMembers? {members values : List (String × Json)}
    (denotes : valueMembers? members = some values) (key : String) :
    values.lookup key = (members.lookup key).bind value? := by
  induction members generalizing values with
  | nil =>
    cases denotes
    rfl
  | cons first rest ih =>
    obtain ⟨k, item⟩ := first
    obtain ⟨v, hv, values, hvalues, rfl⟩ := valueMembers?_cons_eq_some.mp denotes
    rw [Dictionary.lookup_cons_ite, Dictionary.lookup_cons_ite, ih hvalues]
    split
    · exact hv.symm
    · rfl

/-- Under every name the second list has the value of what the first has. -/
def MembersDenote (members values : List (String × Json)) : Prop :=
  ∀ name, Option.Rel (fun j v => j.value? = some v) (members.lookup name) (values.lookup name)

theorem membersDenote_of_valueMembers? {members values : List (String × Json)}
    (each : valueMembers? members = some values) : MembersDenote members values := by
  intro name
  induction members generalizing values with
  | nil =>
    cases each
    exact .none
  | cons first rest ih =>
    obtain ⟨v, hv, values, hvalues, rfl⟩ := valueMembers?_cons_eq_some.mp each
    rw [Dictionary.lookup_cons_ite, Dictionary.lookup_cons_ite]
    split
    · exact .some hv
    · exact ih hvalues

/-- The value of an object without repeated keys has the values of its members. -/
theorem membersDenote_entries {members values : List (String × Json)}
    (distinct : (members.map Prod.fst).Nodup) (each : valueMembers? members = some values) :
    MembersDenote members (Dictionary.ofList values).entries := by
  intro name
  rw [Dictionary.lookup_ofList (valueMembers?_keys each ▸ distinct)]
  exact membersDenote_of_valueMembers? each name

theorem length_of_valueItems? {items values : List Json} (each : valueItems? items = some values) :
    values.length = items.length := by
  induction items generalizing values with
  | nil =>
    cases each
    rfl
  | cons item items ih =>
    obtain ⟨v, hv, values, hvalues, rfl⟩ := valueItems?_cons_eq_some.mp each
    rw [List.length_cons, List.length_cons, ih hvalues]

theorem membersDenote_zip {items values : List Json} (each : valueItems? items = some values)
    (names : List String) :
    MembersDenote (names.zip items) (names.zip values) := by
  intro name
  induction items generalizing values names with
  | nil =>
    cases each
    simp
  | cons item items ih =>
    obtain ⟨v, hv, values, hvalues, rfl⟩ := valueItems?_cons_eq_some.mp each
    cases names with
    | nil => exact .none
    | cons first names =>
      rw [List.zip_cons_cons, List.zip_cons_cons, Dictionary.lookup_cons_ite,
        Dictionary.lookup_cons_ite]
      split
      · exact .some hv
      · exact ih hvalues names

theorem exists_valueMembers? {members : List (String × Json)}
    (each : ∀ member ∈ members, ∃ v, member.2.value? = some v) :
    ∃ values, valueMembers? members = some values := by
  induction members with
  | nil => exact ⟨[], rfl⟩
  | cons first rest ih =>
    obtain ⟨⟨v, hv⟩, others⟩ := List.forall_mem_cons.mp each
    obtain ⟨values, hvalues⟩ := ih others
    exact ⟨(first.1, v) :: values, by simp [valueMembers?, hv, hvalues]⟩

/-- The value of an object without repeated keys, by what each key finds in it. -/
theorem value?_object_eq_some_iff {members entries : List (String × Json)}
    (distinct : (members.map Prod.fst).Nodup)
    (each : ∀ member ∈ members, ∃ v, member.2.value? = some v)
    (ascending : entries.Pairwise fun a b => a.1 < b.1) :
    (Json.object members).value? = some (.object entries) ↔
      ∀ key, entries.lookup key = (members.lookup key).bind value? := by
  obtain ⟨values, hvalues⟩ := exists_valueMembers? each
  have found :
      ∀ key, (Dictionary.ofList values).entries.lookup key = (members.lookup key).bind value? := by
    intro key
    rw [Dictionary.lookup_ofList (valueMembers?_keys hvalues ▸ distinct),
      lookup_valueMembers? hvalues]
  rw [value?, hvalues, Option.map_some, Option.some.injEq, Json.object.injEq]
  constructor
  · rintro rfl
    exact found
  · intro same
    apply eq_of_lookup (Dictionary.ofList values).ascending ascending
    intro key
    rw [found, same]

theorem value?_single (name : String) (j : Json) :
    (Json.object [(name, j)]).value? = j.value?.map fun v => .object [(name, v)] := by
  cases h : j.value? <;>
    simp [value?, valueMembers?, h, Dictionary.ofList, Dictionary.empty, Dictionary.insert,
    Dictionary.place]

theorem exists_valueItems? {items : List Json} (each : ∀ item ∈ items, ∃ v, item.value? = some v) :
    ∃ values, valueItems? items = some values := by
  induction items with
  | nil => exact ⟨[], rfl⟩
  | cons first rest ih =>
    obtain ⟨⟨v, hv⟩, others⟩ := List.forall_mem_cons.mp each
    obtain ⟨values, hvalues⟩ := ih others
    exact ⟨v :: values, by simp [valueItems?, hv, hvalues]⟩

end ChangeStream.Json
