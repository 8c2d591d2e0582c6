import ChangeStream.Proofs.Position.Order
import ChangeStream.Proofs.Text.Bytes
import ChangeStream.Sample

/-!
# Positions of numbers

Where the values are numerals, of any width and with any leading zeros, positions are compared as
numbers are. That is so for system change numbers and for offsets that an engine reports as numbers.
-/

namespace ChangeStream.Position

/-- Numerals are compared as the numbers they denote. -/
theorem compareComponent_of_numerals {x y : String} (hx : Digits.isNumeral x = true)
    (hy : Digits.isNumeral y = true) :
    compareComponent (some x) (some y) =
      compare (Digits.value x.toList) (Digits.value y.toList) := by
  simp [compareComponent, known?_of_isNumeral, hx, hy, compareValues,
    Digits.compareMagnitude_eq hx hy]

theorem atLeast_repr {m n : Nat} : AtLeast (Nat.repr m) (Nat.repr n) ↔ n ≤ m := by
  rw [atLeast_of_numerals (Digits.isNumeral_repr m) (Digits.isNumeral_repr n), Digits.value_repr,
    Digits.value_repr]

theorem hasReached_set_repr (key : String) (m n : Nat) :
    (empty.set key (Nat.repr m)).hasReached (empty.set key (Nat.repr n)) = true ↔ n ≤ m := by
  change (holding key (some (Nat.repr m))).hasReached (holding key (some (Nat.repr n))) = true ↔ _
  rw [hasReached_holding, bne_iff_ne,
    compareComponent_of_numerals (Digits.isNumeral_repr m) (Digits.isNumeral_repr n),
    Digits.value_repr, Digits.value_repr, Ne, Nat.compare_eq_lt, Nat.not_lt]

/-- The position of an offset whose values are numbers, as far as it has values. -/
def ofReadings (readings : List (String × Option Nat)) : Position :=
  ofOffset (readings.map fun reading => (reading.1, reading.2.map Nat.repr))

theorem known?_ofReadings (readings : List (String × Option Nat)) (key : String) :
    known? ((ofReadings readings).get? key) =
      ((Dictionary.ofList readings).get? key).join.map Nat.repr := by
  have found : (ofReadings readings).get? key =
      ((Dictionary.ofList readings).get? key).map fun number =>
        (number.map Nat.repr).getD unset := by
    rw [ofReadings, ofOffset, List.map_map]
    exact Dictionary.get?_ofList_map (fun number : Option Nat => (number.map Nat.repr).getD unset)
      readings key
  rw [found]
  cases (Dictionary.ofList readings).get? key with
  | none => rfl
  | some number =>
    cases number with
    | none => rfl
    | some n => exact known?_of_isNumeral (Digits.isNumeral_repr n)

/-- An offset of numbers has reached another if its number is at least as great wherever the
other has one. -/
theorem hasReached_ofReadings (readings target : List (String × Option Nat)) :
    (ofReadings readings).hasReached (ofReadings target) = true ↔
      ∀ key n, (Dictionary.ofList target).get? key = some (some n) →
        ∃ m, (Dictionary.ofList readings).get? key = some (some m) ∧ n ≤ m := by
  simp only [hasReached_iff, known?_ofReadings, Option.map_eq_some_iff, Option.join_eq_some_iff]
  constructor
  · intro each key n found
    obtain ⟨_, ⟨m, here, rfl⟩, reached⟩ := each key _ ⟨n, found, rfl⟩
    exact ⟨m, here, atLeast_repr.mp reached⟩
  · rintro each key _ ⟨n, found, rfl⟩
    obtain ⟨m, here, reached⟩ := each key n found
    exact ⟨_, ⟨m, here, rfl⟩, atLeast_repr.mpr reached⟩

/-- What is at least as great as a numeral: numerals of numbers at least as great and texts with
bytes not below. -/
theorem atLeast_numeral_iff {x y : String} (numeral : Digits.isNumeral y = true) :
    AtLeast x y ↔
      Digits.isNumeral x = true ∧ Digits.value y.toList ≤ Digits.value x.toList ∨
        Digits.isNumeral x = false ∧ ¬Text.bytes x < Text.bytes y := by
  cases other : Digits.isNumeral x with
  | true => simp [atLeast_of_numerals other numeral]
  | false =>
    have text : (Digits.isNumeral x && Digits.isNumeral y) = false := by rw [other, Bool.false_and]
    rw [atLeast_of_text text, Text.bytes_lt_iff, String.not_lt]
    simp

theorem hasReached_numerals_iff {p target : Position}
    (numerals : ∀ component ∈ target.toList, Digits.isNumeral component.2 = true) :
    p.hasReached target = true ↔ ∀ component ∈ target.toList, ∃ x, p.get? component.1 = some x ∧
      (Digits.isNumeral x = true ∧ Digits.value component.2.toList ≤ Digits.value x.toList ∨
        Digits.isNumeral x = false ∧ x ≠ unset ∧ ¬Text.bytes x < Text.bytes component.2) := by
  rw [hasReached_iff]
  constructor
  · rintro each ⟨key, y⟩ listed
    have numeral := numerals _ listed
    obtain ⟨x, set, reached⟩ :=
      each key y (get?_eq_some_iff.mpr listed ▸ known?_of_isNumeral numeral)
    obtain ⟨found, other⟩ := known?_eq_some_iff.mp set
    refine ⟨x, found, ?_⟩
    simpa [other] using (atLeast_numeral_iff numeral).mp reached
  · intro each key y set
    have listed := get?_eq_some_iff.mp (known?_eq_some_iff.mp set).1
    obtain ⟨x, found, reached⟩ := each _ listed
    have other : x ≠ unset := by
      rcases reached with ⟨numeral, _⟩ | ⟨_, other, _⟩
      · exact ne_unset_of_isNumeral numeral
      · exact other
    refine ⟨x, known?_eq_some_iff.mpr ⟨found, other⟩,
      (atLeast_numeral_iff (numerals _ listed)).mpr ?_⟩
    simpa [other] using reached

/-- Numerals of any width are compared as numbers, and so are positions that consist of them. A
position has reached one of numerals if at each of its keys it has a numeral of a number at least as
great or a text with bytes not below. -/
theorem numerals_compared_as_numbers :
    (∀ x y, Digits.isNumeral x = true → Digits.isNumeral y = true →
        compareComponent (some x) (some y) =
          compare (Digits.value x.toList) (Digits.value y.toList)) ∧
      (∀ key m n, (empty.set key (Nat.repr m)).hasReached (empty.set key (Nat.repr n)) = true ↔
        n ≤ m) ∧
      (∀ m n, (Sample.scn m).hasReached (Sample.scn n) = true ↔ n ≤ m) ∧
      (∀ readings target, (ofReadings readings).hasReached (ofReadings target) = true ↔
        ∀ key n, (Dictionary.ofList target).get? key = some (some n) →
          ∃ m, (Dictionary.ofList readings).get? key = some (some m) ∧ n ≤ m) ∧
      ∀ p target : Position, (∀ component ∈ target.toList, Digits.isNumeral component.2 = true) →
        (p.hasReached target = true ↔
          ∀ component ∈ target.toList, ∃ x, p.get? component.1 = some x ∧
          (Digits.isNumeral x = true ∧ Digits.value component.2.toList ≤ Digits.value x.toList ∨
            Digits.isNumeral x = false ∧ x ≠ unset ∧ ¬Text.bytes x < Text.bytes component.2)) :=
  ⟨fun _ _ => compareComponent_of_numerals, hasReached_set_repr, hasReached_set_repr "scn",
    hasReached_ofReadings,
    fun _ _ => hasReached_numerals_iff⟩

end ChangeStream.Position
