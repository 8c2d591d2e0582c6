import ChangeStream.Proofs.Position.Order
import ChangeStream.Proofs.Text.Bytes

/-!
# Values of one width

Two values with the same number of bytes are compared as texts, also if they are numerals: of
two numerals with the same number of digits the greater is the one with the greater digit where
they first differ. So where the values of each key have one width, as padded numbers and
hexadecimal coordinates have, reaching is transitive and of two different values one is strictly
above the other.
-/

namespace ChangeStream

/-- The digits of a numeral have one byte each. -/
theorem Digits.length_bytes {s : String} (numeral : isNumeral s = true) :
    (Text.bytes s).length = s.toList.length := by
  have single : ∀ c ∈ s.toList, (String.utf8EncodeChar c).length = 1 := by
    intro c listed
    have range := Char.isDigit_iff_toNat.mp ((isNumeral_iff.mp numeral).2 c listed)
    rw [String.length_utf8EncodeChar, Char.utf8Size_eq_one_iff]
    exact Nat.le_trans range.2 (by decide)
  rw [Text.bytes_eq, List.length_flatMap, List.map_congr_left single]
  simp

namespace Position

section Values

variable {x y : String}

/-- Values of one width are compared as texts. -/
theorem compareValues_of_width (width : (Text.bytes x).length = (Text.bytes y).length) :
    compareValues x y = compare x y := by
  rw [compareValues]
  split
  next numerals =>
    obtain ⟨hx, hy⟩ := (Bool.and_eq_true _ _).mp numerals
    rw [Digits.length_bytes hx, Digits.length_bytes hy] at width
    rw [Digits.compareMagnitude_eq hx hy,
      ← Digits.compareOfLessAndEq_eq (Digits.isNumeral_iff.mp hx).2
        (Digits.isNumeral_iff.mp hy).2 width]
    change _ = compareOfLessAndEq x y
    simp only [compareOfLessAndEq, String.lt_iff, String.toList_inj]
  next => rfl

theorem atLeast_of_width (width : (Text.bytes x).length = (Text.bytes y).length) :
    AtLeast x y ↔ y ≤ x := by
  have texts : compareValues x y = compareOfLessAndEq x y := compareValues_of_width width
  rw [← compareValues_ne_lt_iff, texts, Ne, compareOfLessAndEq_eq_lt, String.not_lt]

/-- Values of one width match only if they are equal. -/
theorem eq_of_matches (width : (Text.bytes x).length = (Text.bytes y).length)
    (alike : Matches (some x) (some y)) :
    x = y := by
  cases alike with
  | neither hx hy =>
    simp only [reduceCtorEq, Option.some.injEq, false_or] at hx hy
    rw [hx, hy]
  | text => rfl
  | numerals hx hy same =>
    have both := AtLeast.antisymm_iff.mpr (.inr ⟨hx, hy, same⟩)
    rw [atLeast_of_width width, atLeast_of_width width.symm] at both
    exact String.le_antisymm both.2 both.1

theorem compareComponent_of_width (hx : x ≠ unset) (hy : y ≠ unset)
    (width : (Text.bytes x).length = (Text.bytes y).length) :
    compareComponent (some x) (some y) = compare (Text.bytes x) (Text.bytes y) := by
  have setLeft : known? (some x) = some x := known?_eq_some_iff.mpr ⟨rfl, hx⟩
  have setRight : known? (some y) = some y := known?_eq_some_iff.mpr ⟨rfl, hy⟩
  rw [compareComponent, setLeft, setRight, Text.compare_bytes]
  exact compareValues_of_width width

/-- Of two different values of one width exactly one is at or above the other. -/
theorem hasReached_set_of_width (key : String)
    (width : (Text.bytes x).length = (Text.bytes y).length) (other : x ≠ y) :
    (empty.set key x).hasReached (empty.set key y) =
      !(empty.set key y).hasReached (empty.set key x) := by
  change (holding key (some x)).hasReached (holding key (some y)) =
    !(holding key (some y)).hasReached (holding key (some x))
  have either := compareComponent_total (some x) (some y)
  have notBoth := mt matches_iff.mpr fun alike => other (eq_of_matches width alike)
  rw [hasReached_holding, hasReached_holding]
  by_cases below : compareComponent (some x) (some y) = .lt
  · have above := either.resolve_left (not_not_intro below)
    simp [below, above]
  · have above : compareComponent (some y) (some x) = .lt :=
      Decidable.byContradiction fun above => notBoth ⟨below, above⟩
    simp [below, above]

end Values

/-- Each component that is set has as many bytes as its key demands. -/
def HasWidths (p : Position) (width : String → Nat) : Prop :=
  ∀ key x, known? (p.get? key) = some x → (Text.bytes x).length = width key

theorem hasReached_trans_of_widths {p q r : Position} {width : String → Nat}
    (hp : p.HasWidths width) (hq : q.HasWidths width) (hr : r.HasWidths width)
    (first : p.hasReached q = true) (second : q.hasReached r = true) :
    p.hasReached r = true := by
  rw [hasReached_iff] at first second ⊢
  intro key z hz
  obtain ⟨y, hy, yz⟩ := second key z hz
  obtain ⟨x, hx, xy⟩ := first key y hy
  refine ⟨x, hx, ?_⟩
  have widthX := hp key x hx
  have widthY := hq key y hy
  have widthZ := hr key z hz
  rw [atLeast_of_width (widthX.trans widthY.symm)] at xy
  rw [atLeast_of_width (widthY.trans widthZ.symm)] at yz
  rw [atLeast_of_width (widthX.trans widthZ.symm)]
  exact String.le_trans yz xy

/-- Set values of one width are compared byte by byte, numerals or not. Among positions whose set
values have the width of their key reaching is transitive, and of two single components with
different values of one width exactly one has reached the other. -/
theorem equal_widths_compared_plainly :
    (∀ x y, x ≠ unset → y ≠ unset → (Text.bytes x).length = (Text.bytes y).length →
        compareComponent (some x) (some y) = compare (Text.bytes x) (Text.bytes y)) ∧
      (∀ width (p q r : Position), p.HasWidths width → q.HasWidths width → r.HasWidths width →
        p.hasReached q = true → q.hasReached r = true → p.hasReached r = true) ∧
      ∀ key x y, (Text.bytes x).length = (Text.bytes y).length → x ≠ y →
        (empty.set key x).hasReached (empty.set key y) =
          !(empty.set key y).hasReached (empty.set key x) :=
  ⟨fun _ _ => compareComponent_of_width, fun _ _ _ _ => hasReached_trans_of_widths,
    fun key _ _ => hasReached_set_of_width key⟩

end Position

end ChangeStream
