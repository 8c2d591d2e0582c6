/-!
# Double-precision numbers

The finite numbers of the 64-bit binary format, kept as a sign and a magnitude in units of
`2 ^ -1074`, the least step between two of them: a significand below `2 ^ 53` and the number of
places it is shifted to the left. Rounding is to the nearest, a tie going to the even significand,
and everything is computed in natural numbers.
-/

namespace ChangeStream

/-- A finite double-precision number, `± significand * 2 ^ shift` units. -/
structure Binary64 where
  negative : Bool
  significand : Nat
  shift : Nat
deriving DecidableEq

namespace Binary64

/-- How many units make one. -/
def unitsPerOne : Nat := Nat.pow 2 1074

/-- The magnitude in units. -/
def units (x : Binary64) : Nat := x.significand * Nat.pow 2 x.shift

/-- Zero, of either sign. -/
def zero (negative : Bool) : Binary64 := ⟨negative, 0, 0⟩

/-- Whether the number is a zero. -/
def isZero (x : Binary64) : Bool := x.significand == 0

/-- A quotient rounded to the nearest whole, a tie going to the even one. -/
def roundedQuotient (num den : Nat) : Nat :=
  let whole := num / den
  let twice := 2 * (num % den)
  if twice < den then whole
  else if den < twice then whole + 1
  else whole + whole % 2

/-- The number nearest to `num / den` units, if it is not beyond the greatest finite one. -/
def round? (negative : Bool) (num den : Nat) : Option Binary64 :=
  let shift := Nat.log2 (num / den) - 52
  let significand := roundedQuotient num (den * Nat.pow 2 shift)
  let x : Binary64 :=
    if significand = Nat.pow 2 53 then ⟨negative, Nat.pow 2 52, shift + 1⟩ else
      ⟨negative, significand, shift⟩
  if x.shift ≤ 2045 then some x else none

/-- The number nearest to a natural number. -/
def ofNat? (negative : Bool) (n : Nat) : Option Binary64 :=
  round? negative (n * unitsPerOne) 1

/-- The rounded product with a natural number that is itself rounded first. -/
def mul? (x : Binary64) (factor : Nat) : Option Binary64 := do
  let y ← ofNat? false factor
  round? x.negative (x.units * y.units) unitsPerOne

/-- The rounded quotient by a natural number that is itself rounded first. -/
def div? (x : Binary64) (divisor : Nat) : Option Binary64 := do
  let y ← ofNat? false divisor
  round? x.negative (x.units * unitsPerOne) y.units

end Binary64

end ChangeStream
