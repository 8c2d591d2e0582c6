/-!
# Dictionaries with text keys

A dictionary holds its entries in ascending order of their keys, each key once. It is built by one
operation, `insert`, which keeps the last value given for a key, so that two dictionaries are equal
as soon as every key has the same value in both. Positions, partitions of a source and the members
of a JSON object are dictionaries.

Keys are compared by code point, which is also the order of their UTF-8 bytes.
-/

namespace ChangeStream

/-- Entries in strictly ascending key order. -/
structure Dictionary (β : Type) where
  entries : List (String × β)
  ascending : entries.Pairwise fun a b => a.1 < b.1
deriving DecidableEq

namespace Dictionary

variable {β : Type}

/-- Puts a value at its place in an ascending list of entries, in the stead of an older
value of the key. -/
def place (key : String) (value : β) : List (String × β) → List (String × β)
  | [] => [(key, value)]
  | (k, v) :: rest =>
    if key < k then (key, value) :: (k, v) :: rest
    else if key = k then (key, value) :: rest
    else (k, v) :: place key value rest

theorem mem_place {key : String} {value : β} {entry : String × β} {entries : List (String × β)}
    (h : entry ∈ place key value entries) : entry = (key, value) ∨ entry ∈ entries := by
  induction entries with
  | nil => simpa [place] using h
  | cons first rest ih =>
    unfold place at h
    split at h
    · simpa using h
    · split at h
      · simp only [List.mem_cons] at h ⊢
        exact h.imp_right Or.inr
      · simp only [List.mem_cons] at h ⊢
        rcases h with h | h
        · exact Or.inr (Or.inl h)
        · exact (ih h).imp_right Or.inr

theorem place_ascending {key : String} {value : β} {entries : List (String × β)}
    (h : entries.Pairwise fun a b => a.1 < b.1) :
    (place key value entries).Pairwise fun a b => a.1 < b.1 := by
  induction entries with
  | nil => simp [place]
  | cons first rest ih =>
    obtain ⟨k, v⟩ := first
    have hrest := List.pairwise_cons.1 h
    unfold place
    split
    next hlt =>
      refine List.pairwise_cons.2 ⟨fun e he => ?_, h⟩
      rcases List.mem_cons.1 he with rfl | he
      · exact hlt
      · exact String.lt_trans hlt (hrest.1 e he)
    next hge =>
      split
      next heq =>
        subst heq
        exact List.pairwise_cons.2 hrest
      next hne =>
        refine List.pairwise_cons.2 ⟨fun e he => ?_, ih hrest.2⟩
        rcases mem_place he with rfl | he
        · exact Decidable.byContradiction fun hle =>
            hne (String.le_antisymm (String.not_lt.1 hle) (String.not_lt.1 hge))
        · exact hrest.1 e he

/-- The dictionary without entries. -/
def empty : Dictionary β := ⟨[], .nil⟩

/-- The dictionary in which `key` has the given value and all other keys are as before. -/
def insert (d : Dictionary β) (key : String) (value : β) : Dictionary β :=
  ⟨place key value d.entries, place_ascending d.ascending⟩

/-- The value of a key. -/
def get? (d : Dictionary β) (key : String) : Option β :=
  d.entries.lookup key

/-- Inserts the pairs of a list in turn: of several values of a key the last one stays. -/
def insertAll (d : Dictionary β) (pairs : List (String × β)) : Dictionary β :=
  pairs.foldl (fun d pair => d.insert pair.1 pair.2) d

/-- The dictionary of the pairs of a list, the last value of a key winning. -/
def ofList (pairs : List (String × β)) : Dictionary β :=
  empty.insertAll pairs

/-- The number of keys. -/
def size (d : Dictionary β) : Nat := d.entries.length

/-- Whether there is no key. -/
def isEmpty (d : Dictionary β) : Bool := d.entries.isEmpty

/-- The keys, in ascending order. -/
def keys (d : Dictionary β) : List String := d.entries.map (·.1)

theorem lookup_cons_ite (key other : String) (value : β) (entries : List (String × β)) :
    ((key, value) :: entries).lookup other =
      if other = key then some value else entries.lookup other := by
  by_cases h : other = key
  · simp [h]
  · simp [List.lookup_cons, h, beq_eq_false_iff_ne.2 h]

theorem lookup_place (key other : String) (value : β) (entries : List (String × β)) :
    (place key value entries).lookup other =
      if other = key then some value else entries.lookup other := by
  induction entries with
  | nil => simp [place, lookup_cons_ite]
  | cons first rest ih =>
    obtain ⟨k, v⟩ := first
    unfold place
    split
    next => simp [lookup_cons_ite]
    next =>
      split
      next heq =>
        subst heq
        by_cases h : other = key <;> simp [lookup_cons_ite, h]
      next hne =>
        by_cases h : other = k
        · subst h
          simp [Ne.symm hne]
        · simp [lookup_cons_ite, h, ih]

/-- Inserting sets one key and leaves the others. -/
@[simp] theorem get?_insert (d : Dictionary β) (key other : String) (value : β) :
    (d.insert key value).get? other = if other = key then some value else d.get? other :=
  lookup_place key other value d.entries

@[simp] theorem get?_empty (key : String) : (empty : Dictionary β).get? key = none := rfl

@[simp] theorem insertAll_nil (d : Dictionary β) : d.insertAll [] = d := rfl

@[simp] theorem insertAll_cons (d : Dictionary β) (key : String) (value : β)
    (pairs : List (String × β)) :
    d.insertAll ((key, value) :: pairs) = (d.insert key value).insertAll pairs := rfl

end Dictionary

end ChangeStream
