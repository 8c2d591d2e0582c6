import ChangeStream.Position.Basic
import ChangeStream.Text.Digits

/-!
# When a position has reached another

A position has reached a target when each component that the target names is at or above the
target's value. Values that are numerals are compared as numbers of any size, all others as texts. A
component that is missing or unset is below every set value. The comparison is inclusive, and
components that the target does not name play no part.
-/

namespace ChangeStream.Position

/-- The value of a component that is present and not unset. -/
def known? (value : Option String) : Option String :=
  value.filter (· ≠ unset)

/-- Compares two set values: numerals by magnitude, all others as texts. -/
def compareValues (a b : String) : Ordering :=
  if Digits.isNumeral a && Digits.isNumeral b then Digits.compareMagnitude a b
  else compare a b

/-- Compares two values of a component, an unset one being below every set one. -/
def compareComponent (a b : Option String) : Ordering :=
  match known? a, known? b with
  | none, none => .eq
  | none, some _ => .lt
  | some _, none => .gt
  | some x, some y => compareValues x y

/-- Whether the position is at or above the target in every component that the target names. -/
def hasReached (p target : Position) : Bool :=
  target.toList.all fun component =>
    compareComponent (p.get? component.1) (some component.2) != .lt

end ChangeStream.Position
