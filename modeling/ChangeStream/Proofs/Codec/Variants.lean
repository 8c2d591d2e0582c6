import ChangeStream.Proofs.Codec.Lawful

/-!
# Variants in loose form

A value of a type with variants is written as the name of a variant, or as an object with the name
as its only key. What the decoder takes is settled name by name: a variant is bare, or it holds
something, or there is none of the name.
-/

namespace ChangeStream.Codec

variable {α : Type}

/-- What holds of a name, given the variant and the rule for tidying that it stands for. -/
inductive CaseLaw (write : α → Json) (name : String) :
    Option (Content α) → Option (Option (Json → Json)) → Prop
  | unknown (named : ∀ x, (write x).value? ≠ some (.string name))
      (holding : ∀ x v, (write x).value? ≠ some (.object [(name, v)])) :
        CaseLaw write name none none
  | bare {y : α} (named : ∀ x, (write x).value? = some (.string name) ↔ y = x)
      (holding : ∀ x v, (write x).value? ≠ some (.object [(name, v)])) :
        CaseLaw write name (some (.bare y)) (some none)
  | holding {content : Content α} {tidy : Json → Json} (needs : ∀ x, content.read none ≠ .ok x)
      (named : ∀ x, (write x).value? ≠ some (.string name))
      (accepts : ∀ {v}, v.IsValue → ∀ x,
        content.read (some v) = .ok x ↔ (write x).value? = some (.object [(name, tidy v)]))
      (tidied : ∀ x v, (write x).value? = some (.object [(name, v)]) → tidy v = v) :
      CaseLaw write name (some content) (some (some tidy))

variable {write : α → Json} {variants : List (String × Content α)}
  {rules : List (String × Option (Json → Json))} {name : String}

namespace CaseLaw

theorem choose_none (law : CaseLaw write name (variants.lookup name) (rules.lookup name)) (x : α) :
    variant.choose variants name none = .ok x ↔ (write x).value? = some (.string name) := by
  rw [variant.choose]
  generalize variants.lookup name = content, rules.lookup name = rule at law
  cases law with
  | unknown named _ => simp [named]
  | bare named _ => simp [Content.read, named]
  | holding needs named _ _ => exact iff_of_false (needs x) (named x)

theorem choose_some (law : CaseLaw write name (variants.lookup name) (rules.lookup name))
    {v : Json} (value : v.IsValue) (x : α) :
    variant.choose variants name (some v) = .ok x ↔
      (write x).value? = some (tidyVariant rules (.object [(name, v)])) := by
  rw [variant.choose, tidyVariant]
  generalize variants.lookup name = content, rules.lookup name = rule at law ⊢
  cases law with
  | unknown _ holding => simp [tidyCase, holding]
  | bare named holding => cases v <;> simp [tidyCase, Content.read, named, holding]
  | holding _ _ accepts _ => exact accepts value x

theorem tidied_single (law : CaseLaw write name (variants.lookup name) (rules.lookup name))
    {x : α} {v : Json} (written : (write x).value? = some (.object [(name, v)])) :
    tidyVariant rules (.object [(name, v)]) = .object [(name, v)] := by
  rw [tidyVariant]
  generalize variants.lookup name = content, rules.lookup name = rule at law ⊢
  cases law with
  | unknown _ holding => exact absurd written (holding x v)
  | bare _ holding => exact absurd written (holding x v)
  | holding _ _ _ tidied => rw [tidyCase, tidied x v written]

end CaseLaw

/-- The decoder of a type with variants is lawful if each name is. -/
theorem variant_lawful
    (shape : ∀ x, (∃ name, (write x).value? = some (.string name)) ∨
      ∃ name v, (write x).value? = some (.object [(name, v)]))
    (law : ∀ name, CaseLaw write name (variants.lookup name) (rules.lookup name)) :
    Lawful (variant variants) (tidyVariant rules) write where
  denotes x := by
    rcases shape x with ⟨name, written⟩ | ⟨name, v, written⟩
    · exact ⟨_, written⟩
    · exact ⟨_, written⟩
  accepts {v} value x := by
    have other : (∀ name, v ≠ .string name) → (∀ name content, v ≠ .object [(name, content)]) →
        (write x).value? ≠ some v := by
      intro noName noContent denoted
      rcases shape x with ⟨name, written⟩ | ⟨name, content, written⟩
      · exact noName name (Option.some.inj (denoted.symm.trans written))
      · exact noContent name content (Option.some.inj (denoted.symm.trans written))
    cases v with
    | string name => exact (law name).choose_none x
    | object members =>
      match members, value with
      | [(name, content)], value =>
        exact (law name).choose_some (value.member _ List.mem_cons_self) x
      | [], value => simpa [variant, tidyVariant] using other
      | _ :: _ :: _, value => simpa [variant, tidyVariant] using other
    | _ => simpa [variant, tidyVariant] using other
  tidied x v denoted := by
    rcases shape x with ⟨name, written⟩ | ⟨name, content, written⟩
    · cases denoted.symm.trans written
      rfl
    · cases denoted.symm.trans written
      exact (law name).tidied_single written

theorem lookup_map_eq_some_iff {γ : Type} {name : α → String} (injective : name.Injective)
    (f : α → γ) (all : List α) (key : String) (value : γ) :
    (all.map fun x => (name x, f x)).lookup key = some value ↔
    ∃ x ∈ all, name x = key ∧ f x = value := by
  induction all with
  | nil => simp
  | cons first all ih =>
    rw [List.map_cons, Dictionary.lookup_cons_ite, List.exists_mem_cons_iff, ← ih]
    by_cases here : key = name first
    · subst here
      rw [if_pos rfl, Option.some.injEq, and_iff_right rfl, ih]
      constructor
      · exact Or.inl
      · rintro (same | ⟨x, _, same, rfl⟩)
        · exact same
        · rw [injective same]
    · simp [here, Ne.symm here]

/-- A type whose variants all hold nothing. -/
theorem bare_lawful {name : α → String} (injective : name.Injective) {all : List α}
    (complete : ∀ x, x ∈ all) :
    Lawful (variant (all.map fun x => (name x, .bare x)))
      (tidyVariant (all.map fun x => (name x, none)))
      fun x => .string (name x) := by
  have written : ∀ x, (Json.string (name x)).value? = some (.string (name x)) := fun _ => rfl
  apply variant_lawful
  · intro x
    exact .inl ⟨name x, rfl⟩
  intro key
  by_cases listed : ∃ y, name y = key
  · obtain ⟨y, rfl⟩ := listed
    rw [(lookup_map_eq_some_iff injective _ all _ _).mpr ⟨y, complete y, rfl, rfl⟩,
      (lookup_map_eq_some_iff injective _ all _ _).mpr ⟨y, complete y, rfl, rfl⟩]
    apply CaseLaw.bare
    · intro x
      rw [written, Option.some.injEq, Json.string.injEq, injective.eq_iff, eq_comm]
    · simp [written]
  · have strange :
        ∀ {γ : Type} (f : α → γ), (all.map fun x => (name x, f x)).lookup key = none := by
      intro γ f
      rw [Option.eq_none_iff_forall_ne_some]
      intro value found
      obtain ⟨y, _, same, _⟩ := (lookup_map_eq_some_iff injective f all _ _).mp found
      exact listed ⟨y, same⟩
    rw [strange, strange]
    apply CaseLaw.unknown
    · intro x
      rw [written]
      simpa using not_exists.mp listed x
    · simp [written]

end ChangeStream.Codec
