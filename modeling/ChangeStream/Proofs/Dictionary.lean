import ChangeStream.Dictionary
import Mathlib.Data.List.Basic
import Mathlib.Data.List.Nodup

/-!
# What a dictionary is determined by

A dictionary is what its lookups are: ascending lists of entries in which every key has the same
value are equal. A dictionary made of a list without repeated keys finds what the list finds.
-/

namespace ChangeStream

variable {β : Type}

/-- Entries in ascending order have each key once. -/
theorem nodup_keys_of_ascending {entries : List (String × β)}
    (ascending : entries.Pairwise fun a b => a.1 < b.1) :
    (entries.map Prod.fst).Nodup := by
  rw [List.Nodup, List.pairwise_map]
  refine ascending.imp fun {a b} before same => ?_
  exact String.lt_irrefl b.1 (same ▸ before)

theorem lookup_eq_some_iff_mem {entries : List (String × β)}
    (distinct : (entries.map Prod.fst).Nodup) (key : String) (value : β) :
    entries.lookup key = some value ↔ (key, value) ∈ entries := by
  induction entries with
  | nil => simp
  | cons first rest ih =>
    obtain ⟨k, v⟩ := first
    obtain ⟨fresh, distinct⟩ := List.nodup_cons.mp distinct
    rw [Dictionary.lookup_cons_ite, List.mem_cons]
    by_cases here : key = k
    · subst here
      have absent : (key, value) ∉ rest := fun member => fresh (List.mem_map.mpr ⟨_, member, rfl⟩)
      simp [absent, eq_comm]
    · simp [here, ih distinct]

theorem forall_mem_iff_lookup {entries : List (String × β)}
    (distinct : (entries.map Prod.fst).Nodup) {P : String → β → Prop} :
    (∀ entry ∈ entries, P entry.1 entry.2) ↔
    ∀ key value, entries.lookup key = some value → P key value := by
  simp only [lookup_eq_some_iff_mem distinct, Prod.forall]

/-- A key has a value exactly if it is among the keys. -/
theorem isSome_lookup_iff (entries : List (String × β)) (key : String) :
    (entries.lookup key).isSome = true ↔ key ∈ entries.map Prod.fst := by
  induction entries with
  | nil => simp
  | cons first rest ih =>
    rw [Dictionary.lookup_cons_ite, List.map_cons, List.mem_cons, ← ih]
    by_cases here : key = first.1 <;> simp [here]

/-- Ascending entries are determined by what each key finds in them. -/
theorem eq_of_lookup {left right : List (String × β)} (hleft : left.Pairwise fun a b => a.1 < b.1)
    (hright : right.Pairwise fun a b => a.1 < b.1)
    (same : ∀ key, left.lookup key = right.lookup key) :
    left = right := by
  have distinctLeft := nodup_keys_of_ascending hleft
  have distinctRight := nodup_keys_of_ascending hright
  have perm : left.Perm right := by
    apply (List.perm_ext_iff_of_nodup distinctLeft.of_map distinctRight.of_map).mpr
    intro (key, value)
    rw [← lookup_eq_some_iff_mem distinctLeft, ← lookup_eq_some_iff_mem distinctRight, same]
  apply perm.eq_of_pairwise _ hleft hright
  intro a b _ _ before after
  exact absurd (String.lt_trans before after) (String.lt_irrefl a.1)

namespace Dictionary

theorem get?_insertAll (d : Dictionary β) {pairs : List (String × β)}
    (distinct : (pairs.map Prod.fst).Nodup) (key : String) :
    (d.insertAll pairs).get? key = (pairs.lookup key).or (d.get? key) := by
  induction pairs generalizing d with
  | nil => rfl
  | cons first rest ih =>
    obtain ⟨fresh, distinct⟩ := List.nodup_cons.mp distinct
    rw [insertAll_cons, ih _ distinct, get?_insert, lookup_cons_ite]
    by_cases here : key = first.1
    · have absent : rest.lookup first.1 = none := by
        rw [← Option.not_isSome_iff_eq_none, isSome_lookup_iff]
        exact fresh
      simp [here, absent]
    · simp [here]

theorem lookup_ofList {pairs : List (String × β)} (distinct : (pairs.map Prod.fst).Nodup)
    (key : String) :
    (ofList pairs).entries.lookup key = pairs.lookup key := by
  have found := get?_insertAll empty distinct key
  rwa [get?_empty, Option.or_none] at found

/-- Dictionaries in which every key has the same value are equal. -/
theorem eq_of_get? {d e : Dictionary β} (same : ∀ key, d.get? key = e.get? key) : d = e := by
  have entries : d.entries = e.entries := eq_of_lookup d.ascending e.ascending same
  cases d
  cases e
  cases entries
  rfl

/-- Making a dictionary of the entries of one gives it back. -/
@[simp] theorem ofList_entries (d : Dictionary β) : ofList d.entries = d :=
  eq_of_get? (lookup_ofList (nodup_keys_of_ascending d.ascending))

/-- Of several values of a key the last one stands. -/
theorem get?_insertAll_reverse (d : Dictionary β) (pairs : List (String × β)) (key : String) :
    (d.insertAll pairs).get? key = (pairs.reverse.lookup key).or (d.get? key) := by
  induction pairs generalizing d with
  | nil => rfl
  | cons first rest ih =>
    rw [insertAll_cons, ih, get?_insert, List.reverse_cons, List.lookup_append, lookup_cons_ite,
      Option.or_assoc]
    split <;> rfl

theorem get?_ofList_reverse (pairs : List (String × β)) (key : String) :
    (ofList pairs).get? key = pairs.reverse.lookup key := by
  rw [ofList, get?_insertAll_reverse, get?_empty, Option.or_none]

theorem mem_keys_ofList {pairs : List (String × β)} {key : String} :
    key ∈ (ofList pairs).keys ↔ key ∈ pairs.map Prod.fst := by
  have found := get?_ofList_reverse pairs key
  rw [get?] at found
  rw [keys, ← isSome_lookup_iff, found, isSome_lookup_iff, List.map_reverse, List.mem_reverse]

theorem get?_insertAll_map {γ : Type} (f : β → γ) {d : Dictionary β} {e : Dictionary γ}
    (start : ∀ key, e.get? key = (d.get? key).map f) (pairs : List (String × β)) (key : String) :
    (e.insertAll (pairs.map fun pair => (pair.1, f pair.2))).get? key =
      ((d.insertAll pairs).get? key).map f := by
  induction pairs generalizing d e with
  | nil => exact start key
  | cons first rest ih =>
    apply ih
    intro other
    rw [get?_insert, get?_insert, start]
    split <;> rfl

/-- Mapping the values of a list maps those that stand in its dictionary. -/
theorem get?_ofList_map {γ : Type} (f : β → γ) (pairs : List (String × β)) (key : String) :
    (ofList (pairs.map fun pair => (pair.1, f pair.2))).get? key =
      ((ofList pairs).get? key).map f :=
  get?_insertAll_map f (fun _ => rfl) pairs key

theorem lookup_map_snd {γ : Type} (f : β → γ) (entries : List (String × β)) (key : String) :
    (entries.map fun entry => (entry.1, f entry.2)).lookup key = (entries.lookup key).map f := by
  induction entries with
  | nil => rfl
  | cons first rest ih =>
    rw [List.map_cons, lookup_cons_ite, lookup_cons_ite, ih]
    split <;> rfl

theorem entries_ofList_map {γ : Type} (f : β → γ) (pairs : List (String × β)) :
    (ofList (pairs.map fun pair => (pair.1, f pair.2))).entries =
      (ofList pairs).entries.map fun entry => (entry.1, f entry.2) := by
  have ascending :
      ((ofList pairs).entries.map fun entry => (entry.1, f entry.2)).Pairwise fun a b =>
        a.1 < b.1 :=
    List.pairwise_map.mpr (ofList pairs).ascending
  apply eq_of_lookup (ofList _).ascending ascending
  intro key
  rw [lookup_map_snd]
  exact get?_ofList_map f pairs key

theorem mem_insertAll {d : Dictionary β} {pairs : List (String × β)} {entry : String × β}
    (member : entry ∈ (d.insertAll pairs).entries) : entry ∈ d.entries ∨ entry ∈ pairs := by
  induction pairs generalizing d with
  | nil => exact .inl member
  | cons first rest ih =>
    rcases ih member with old | later
    · rcases mem_place old with rfl | older
      · exact .inr List.mem_cons_self
      · exact .inl older
    · exact .inr (List.mem_cons_of_mem _ later)

theorem mem_ofList {pairs : List (String × β)} {entry : String × β}
    (member : entry ∈ (ofList pairs).entries) :
    entry ∈ pairs := by
  rcases mem_insertAll member with none | listed
  · cases none
  · exact listed

/-- The entries that pass a test. -/
def filter (keeps : String → β → Bool) (d : Dictionary β) : Dictionary β :=
  ⟨d.entries.filter fun entry => keeps entry.1 entry.2, d.ascending.filter _⟩

theorem get?_filter (keeps : String → β → Bool) (d : Dictionary β) (key : String) :
    (d.filter keeps).get? key = (d.get? key).filter (keeps key) := by
  have before := lookup_eq_some_iff_mem (nodup_keys_of_ascending d.ascending)
  have after := lookup_eq_some_iff_mem (nodup_keys_of_ascending (d.filter keeps).ascending)
  ext value
  rw [get?, after, filter, List.mem_filter, Option.filter_eq_some_iff, get?, before]

end Dictionary

end ChangeStream
