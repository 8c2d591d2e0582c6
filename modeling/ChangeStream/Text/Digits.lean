/-!
# Texts of decimal digits

A text of ASCII digits denotes a natural number of any size. Two such texts are compared by
magnitude without computing the numbers: leading zeros are left out, then the longer text is the
greater, and of two texts of one length the greater is found digit by digit.
-/

namespace ChangeStream.Digits

/-- Whether a text is made of ASCII digits, at least one. -/
def isNumeral (s : String) : Bool :=
  !s.isEmpty && s.toList.all Char.isDigit

/-- The number a list of digits denotes, leading digit first. -/
def value (digits : List Char) : Nat :=
  digits.foldl (fun n c => 10 * n + (c.toNat - '0'.toNat)) 0

/-- The digits without leading zeros; none are left of zero. -/
def significant (s : String) : List Char :=
  s.toList.dropWhile (· = '0')

/-- Compares two numerals by magnitude. -/
def compareMagnitude (a b : String) : Ordering :=
  let x := significant a
  let y := significant b
  (compare x.length y.length).then (compareOfLessAndEq x y)

end ChangeStream.Digits
