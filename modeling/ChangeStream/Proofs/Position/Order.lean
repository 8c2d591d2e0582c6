import ChangeStream.Position.Order
import ChangeStream.Proofs.Dictionary
import ChangeStream.Proofs.Text.Digits
import ChangeStream.Range

/-!
# The order of positions

A position has reached another exactly if, at every key, whatever is set there in the other one has
a value at least as great in it. Two numerals are compared by their numbers and all other pairs of
values as texts. Each of the two orders is total, so of any two values one is at least as great as
the other, and both are only if they are equal as texts or as numbers. The mixture of the two orders
is not transitive: a text may stand between two numerals that are the other way round as numbers.
-/

namespace ChangeStream.Position

/-! ## Set values -/

section Values

variable {x y z : String}

/-- What it is for a set value to be at least as great as another. -/
def AtLeast (x y : String) : Prop :=
  if Digits.isNumeral x && Digits.isNumeral y then
    Digits.value y.toList ≤ Digits.value x.toList else y ≤ x

theorem atLeast_of_numerals (hx : Digits.isNumeral x = true) (hy : Digits.isNumeral y = true) :
    AtLeast x y ↔ Digits.value y.toList ≤ Digits.value x.toList := by
  rw [AtLeast, hx, hy, Bool.and_self, if_pos rfl]

theorem atLeast_of_text (text : (Digits.isNumeral x && Digits.isNumeral y) = false) :
    AtLeast x y ↔ y ≤ x := by
  rw [AtLeast, text, if_neg Bool.false_ne_true]

theorem compareValues_ne_lt_iff : compareValues x y ≠ .lt ↔ AtLeast x y := by
  cases numerals : Digits.isNumeral x && Digits.isNumeral y with
  | true =>
    obtain ⟨hx, hy⟩ := (Bool.and_eq_true _ _).mp numerals
    rw [compareValues, if_pos numerals, Digits.compareMagnitude_eq hx hy, atLeast_of_numerals hx hy,
      Ne, Nat.compare_eq_lt, Nat.not_lt]
  | false =>
    have texts : compareValues x y = compareOfLessAndEq x y := by
      rw [compareValues, numerals]
      rfl
    rw [texts, atLeast_of_text numerals, Ne, compareOfLessAndEq_eq_lt, String.not_lt]

namespace AtLeast

theorem total (x y : String) : AtLeast x y ∨ AtLeast y x := by
  rw [AtLeast, AtLeast, Bool.and_comm]
  split
  · exact Nat.le_total _ _
  · exact String.le_total y x

theorem refl (x : String) : AtLeast x x :=
  (total x x).elim id id

/-- Two values are at least as great as each other if they are the same text or denote
the same number. -/
theorem antisymm_iff :
    AtLeast x y ∧ AtLeast y x ↔
      x = y ∨ Digits.isNumeral x = true ∧ Digits.isNumeral y = true ∧
        Digits.value x.toList = Digits.value y.toList := by
  constructor
  · rintro ⟨left, right⟩
    cases numerals : Digits.isNumeral x && Digits.isNumeral y with
    | true =>
      obtain ⟨hx, hy⟩ := (Bool.and_eq_true _ _).mp numerals
      rw [atLeast_of_numerals hx hy] at left
      rw [atLeast_of_numerals hy hx] at right
      exact .inr ⟨hx, hy, Nat.le_antisymm right left⟩
    | false =>
      rw [atLeast_of_text numerals] at left
      rw [atLeast_of_text (Bool.and_comm _ _ ▸ numerals)] at right
      exact .inl (String.le_antisymm right left)
  · rintro (rfl | ⟨hx, hy, same⟩)
    · exact ⟨refl x, refl x⟩
    · rw [atLeast_of_numerals hx hy, atLeast_of_numerals hy hx]
      exact ⟨Nat.le_of_eq same.symm, Nat.le_of_eq same⟩

/-- The order is transitive on three values unless just two of them are numerals. -/
theorem trans (unmixed : [x, y, z].countP Digits.isNumeral ≠ 2) (first : AtLeast x y)
    (second : AtLeast y z) :
    AtLeast x z := by
  by_cases numerals : Digits.isNumeral x = true ∧ Digits.isNumeral y = true ∧
    Digits.isNumeral z = true
  · obtain ⟨hx, hy, hz⟩ := numerals
    rw [atLeast_of_numerals hx hy] at first
    rw [atLeast_of_numerals hy hz] at second
    rw [atLeast_of_numerals hx hz]
    exact Nat.le_trans second first
  · -- At most one of the three is a numeral, so that every comparison is one of texts.
    have texts : (Digits.isNumeral x && Digits.isNumeral y) = false ∧
        (Digits.isNumeral y && Digits.isNumeral z) = false ∧
          (Digits.isNumeral x && Digits.isNumeral z) = false := by
      simp only [List.countP_cons, List.countP_nil] at unmixed
      generalize Digits.isNumeral x = a, Digits.isNumeral y = b, Digits.isNumeral z = c at *
      revert a b c
      decide
    rw [atLeast_of_text texts.1] at first
    rw [atLeast_of_text texts.2.1] at second
    rw [atLeast_of_text texts.2.2]
    exact String.le_trans second first

end AtLeast

end Values

/-! ## Components and positions -/

theorem known?_eq_none_iff {value : Option String} :
    known? value = none ↔ value = none ∨ value = some unset := by
  cases value <;> simp [known?]

theorem known?_eq_some_iff {value : Option String} {x : String} :
    known? value = some x ↔ value = some x ∧ x ≠ unset := by
  rw [known?, Option.filter_eq_some_iff, decide_eq_true_eq]

theorem ne_unset_of_isNumeral {x : String} (numeral : Digits.isNumeral x = true) : x ≠ unset := by
  rintro rfl
  exact absurd numeral (by decide)

theorem known?_of_isNumeral {x : String} (numeral : Digits.isNumeral x = true) :
    known? (some x) = some x :=
  known?_eq_some_iff.mpr ⟨rfl, ne_unset_of_isNumeral numeral⟩

/-- A component is not below another exactly if it has a value at least as great as what
is set there. -/
theorem compareComponent_ne_lt_iff {a b : Option String} :
    compareComponent a b ≠ .lt ↔ ∀ y, known? b = some y → ∃ x, known? a = some x ∧ AtLeast x y := by
  rw [compareComponent]
  cases known? a <;> cases known? b <;> simp [compareValues_ne_lt_iff]

theorem compareComponent_ne_lt_of_known {a b : Option String} {x y : String}
    (ha : known? a = some x) (hb : known? b = some y) :
    compareComponent a b ≠ .lt ↔ AtLeast x y := by
  simp [compareComponent_ne_lt_iff, ha, hb]

theorem compareComponent_total (a b : Option String) :
    compareComponent a b ≠ .lt ∨ compareComponent b a ≠ .lt := by
  cases ha : known? a with
  | none => exact .inr (compareComponent_ne_lt_iff.mpr (by simp [ha]))
  | some x =>
    cases hb : known? b with
    | none => exact .inl (compareComponent_ne_lt_iff.mpr (by simp [hb]))
    | some y =>
      rw [compareComponent_ne_lt_of_known ha hb, compareComponent_ne_lt_of_known hb ha]
      exact AtLeast.total x y

theorem compareComponent_self (a : Option String) : compareComponent a a ≠ .lt :=
  (compareComponent_total a a).elim id id

theorem get?_eq_some_iff {p : Position} {key value : String} :
    p.get? key = some value ↔ (key, value) ∈ p.toList :=
  lookup_eq_some_iff_mem (nodup_keys_of_ascending p.components.ascending) key value

/-- Reaching, by what is set at each key. -/
theorem hasReached_iff {p target : Position} :
    p.hasReached target = true ↔
      ∀ key y, known? (target.get? key) = some y →
      ∃ x, known? (p.get? key) = some x ∧ AtLeast x y := by
  rw [hasReached, List.all_eq_true]
  simp only [bne_iff_ne, compareComponent_ne_lt_iff]
  constructor
  · intro each key y set
    obtain ⟨found, -⟩ := known?_eq_some_iff.mp set
    exact each (key, y) (get?_eq_some_iff.mp found) y (found ▸ set)
  · rintro each ⟨key, value⟩ listed y set
    exact each key y (get?_eq_some_iff.mpr listed ▸ set)

/-- Reaching, by the components of each key. -/
theorem hasReached_iff_compareComponent {p target : Position} :
    p.hasReached target = true ↔ ∀ key, compareComponent (p.get? key) (target.get? key) ≠ .lt := by
  simp only [hasReached_iff, compareComponent_ne_lt_iff]

/-- The position of one component, which may be missing. -/
def holding (key : String) (value : Option String) : Position :=
  value.elim .empty (Position.empty.set key)

@[simp] theorem get?_holding (key other : String) (value : Option String) :
    (holding key value).get? other = if other = key then value else none := by
  cases value <;> simp [holding]

theorem hasReached_holding (key : String) (a b : Option String) :
    (holding key a).hasReached (holding key b) = (compareComponent a b != .lt) := by
  rw [Bool.eq_iff_iff, hasReached_iff_compareComponent, bne_iff_ne]
  simp only [get?_holding]
  constructor
  · intro each
    simpa using each key
  · intro reached other
    by_cases here : other = key
    · simpa [here] using reached
    · simp [here, compareComponent, known?]

/-! ## Transitivity -/

/-- All three components are set and just two of them are numerals. -/
def Mixed (a b c : Option String) : Prop :=
  ∃ x y z, known? a = some x ∧ known? b = some y ∧ known? c = some z ∧
    [x, y, z].countP Digits.isNumeral = 2

/-- Reaching is transitive unless at some key of the last position the three components are mixed.
Wherever the text among them stands, there are values of a single component for which it is not. -/
theorem reaching_transitive_unless_mixed :
    (∀ p q r : Position,
      (∀ key, (r.get? key).isSome = true → ¬Mixed (p.get? key) (q.get? key) (r.get? key)) →
        p.hasReached q = true → q.hasReached r = true → p.hasReached r = true) ∧
      ∀ numerals ∈ [[false, true, true], [true, false, true], [true, true, false]], ∀ key, ∃ x y z,
        [x, y, z].map Digits.isNumeral = numerals ∧ unset ∉ [x, y, z] ∧
          (holding key (some x)).hasReached (holding key (some y)) = true ∧
          (holding key (some y)).hasReached (holding key (some z)) = true ∧
          (holding key (some x)).hasReached (holding key (some z)) = false := by
  constructor
  · intro p q r unmixed first second
    rw [hasReached_iff] at first second ⊢
    intro key z hz
    obtain ⟨y, hy, yz⟩ := second key z hz
    obtain ⟨x, hx, xy⟩ := first key y hy
    refine ⟨x, hx, xy.trans (fun two => ?_) yz⟩
    apply unmixed key
    · rw [(known?_eq_some_iff.mp hz).1]
      rfl
    · exact ⟨x, y, z, hx, hy, hz, two⟩
  · intro numerals listed key
    simp only [hasReached_holding]
    simp only [List.mem_cons, List.not_mem_nil, or_false] at listed
    rcases listed with rfl | rfl | rfl
    · exact ⟨"5x", "10", "9", by decide⟩
    · exact ⟨"9", "5x", "10", by decide⟩
    · exact ⟨"10", "9", "5x", by decide⟩

/-! ## Reaching each other -/

/-- What two components have in common in positions that reach each other: neither is set, or they
are the same text, or they are numerals of the same number. -/
inductive Matches : Option String → Option String → Prop
  | neither {a b : Option String} (ha : a = none ∨ a = some unset)
      (hb : b = none ∨ b = some unset) : Matches a b
  | text (x : String) : Matches (some x) (some x)
  | numerals {x y : String} (hx : Digits.isNumeral x = true) (hy : Digits.isNumeral y = true)
      (same : Digits.value x.toList = Digits.value y.toList) : Matches (some x) (some y)

theorem matches_iff {a b : Option String} :
    Matches a b ↔ compareComponent a b ≠ .lt ∧ compareComponent b a ≠ .lt := by
  constructor
  · intro alike
    cases alike with
    | neither ha hb =>
      simp [compareComponent_ne_lt_iff, known?_eq_none_iff.mpr ha, known?_eq_none_iff.mpr hb]
    | text x => exact ⟨compareComponent_self _, compareComponent_self _⟩
    | @numerals x y hx hy same =>
      have setLeft := known?_of_isNumeral hx
      have setRight := known?_of_isNumeral hy
      rw [compareComponent_ne_lt_of_known setLeft setRight,
        compareComponent_ne_lt_of_known setRight setLeft]
      exact AtLeast.antisymm_iff.mpr (.inr ⟨hx, hy, same⟩)
  · rintro ⟨left, right⟩
    cases ha : known? a with
    | none =>
      cases hb : known? b with
      | none => exact .neither (known?_eq_none_iff.mp ha) (known?_eq_none_iff.mp hb)
      | some y => simp [compareComponent_ne_lt_iff, ha, hb] at left
    | some x =>
      cases hb : known? b with
      | none => simp [compareComponent_ne_lt_iff, ha, hb] at right
      | some y =>
        rw [compareComponent_ne_lt_of_known ha hb] at left
        rw [compareComponent_ne_lt_of_known hb ha] at right
        obtain ⟨rfl, -⟩ := known?_eq_some_iff.mp ha
        obtain ⟨rfl, -⟩ := known?_eq_some_iff.mp hb
        rcases AtLeast.antisymm_iff.mp ⟨left, right⟩ with rfl | ⟨hx, hy, same⟩
        · exact .text x
        · exact .numerals hx hy same

theorem reached_both_iff_matches {p q : Position} :
    p.hasReached q = true ∧ q.hasReached p = true ↔ ∀ key, Matches (p.get? key) (q.get? key) := by
  simp only [hasReached_iff_compareComponent, matches_iff, forall_and]

theorem exists_bounded_iff {id : SplitId} {start stop : Position} :
    (∃ range, Range.bounded id start stop = .ok range) ↔ stop.hasReached start = true := by
  rw [Range.bounded]
  split
  next reached => exact iff_of_true ⟨_, rfl⟩ reached
  next behind => exact iff_of_false (by simp) behind

/-- Every position has reached itself. Of two positions that hold one component at most and under
one key, one has reached the other. Two positions have reached each other exactly if their
components match, and then and only then there is a range from either of them to the other. -/
theorem reaching_total_up_to_matching :
    (∀ p : Position, p.hasReached p = true) ∧
      (∀ key a b, (holding key a).hasReached (holding key b) = true ∨
        (holding key b).hasReached (holding key a) = true) ∧
      (∀ p q : Position, p.hasReached q = true ∧ q.hasReached p = true ↔
        ∀ key, Matches (p.get? key) (q.get? key)) ∧
      ∀ id p q, (∃ range, Range.bounded id p q = .ok range) ∧
        (∃ range, Range.bounded id q p = .ok range) ↔
        ∀ key, Matches (p.get? key) (q.get? key) := by
  refine ⟨fun p => ?_, fun key a b => ?_, fun p q => reached_both_iff_matches, fun id p q => ?_⟩
  · rw [hasReached_iff_compareComponent]
    exact fun key => compareComponent_self _
  · simpa only [hasReached_holding, bne_iff_ne] using compareComponent_total a b
  · rw [exists_bounded_iff, exists_bounded_iff, and_comm, reached_both_iff_matches]

end ChangeStream.Position
