import ChangeStream.Json.Basic
import ChangeStream.Text.Digits

/-!
# Numbers as JSON writes them

A numeral has a sign, digits before the point, maybe digits after it, and maybe an exponent. Without
point and exponent it denotes a whole number, as long as that fits into 64 bits. Any other numeral
denotes a double: its leading digits are gathered as long as they fit into 64 bits, the number they
form is rounded, and the result is multiplied or divided by a power of ten, which rounds once more.
The outcome may differ from the nearest double by a last place.
-/

namespace ChangeStream

/-- A numeral of a JSON text. -/
structure Numeral where
  negative : Bool
  whole : List Char
  fraction : Option (List Char)
  exponent : Option Int

namespace Numeral

/-- The first number that does not fit into an unsigned word of 64 bits. -/
def wordLimit : Nat := Nat.pow 2 64

/-- Gathers digits as long as the number fits into a word; the number and the digits left over. -/
def gather (n : Nat) : List Char → Nat × List Char
  | [] => (n, [])
  | c :: rest =>
    let next := 10 * n + Digits.value [c]
    if next < wordLimit then gather next rest else (n, c :: rest)

/-- The leading digits as a number, and the power of ten it is to be taken at. -/
def scaled (numeral : Numeral) : Nat × Int :=
  let (whole, left) := gather 0 numeral.whole
  let fraction := numeral.fraction.getD []
  let (significand, unread) := gather whole fraction
  (significand,
    (left.length : Int) - (fraction.length - unread.length : Nat) + numeral.exponent.getD 0)

/-- The greatest power of ten that is a double has this exponent. -/
def powerLimit : Nat := 308

/-- Divides by the greatest power of ten, at most so many times; zero is left as it is. -/
def divideByLimit (x : Binary64) : Nat → Option Binary64
  | 0 => some x
  | times + 1 =>
    if x.isZero then some x
    else
      match x.div? (Nat.pow 10 powerLimit) with
      | some y => divideByLimit y times
      | none => none

/-- Divides by a power of ten. One that is no double is taken in several steps. -/
def scaleDown (x : Binary64) (power : Nat) : Option Binary64 := do
  let times := (power - 1) / powerLimit
  let y ← divideByLimit x times
  y.div? (Nat.pow 10 (power - powerLimit * times))

/-- The double that a numeral denotes, if it is not beyond the greatest one. -/
def double? (numeral : Numeral) : Option Binary64 :=
  let (significand, power) := numeral.scaled
  match Binary64.ofNat? numeral.negative significand with
  | none => none
  | some x =>
    if power < 0 then scaleDown x power.natAbs
    else if x.isZero then some x
    else if power ≤ powerLimit then x.mul? (Nat.pow 10 power.toNat)
    else none

/-- The number that a numeral denotes. Minus zero is a double. -/
def number? (numeral : Numeral) : Option Number :=
  match numeral.fraction, numeral.exponent with
  | none, none =>
    let n := Digits.value numeral.whole
    if !numeral.negative && n < wordLimit then some (.natural n)
    else if numeral.negative && 0 < n && n ≤ Nat.pow 2 63 then some (.negative n)
    else numeral.double?.map .float
  | _, _ => numeral.double?.map .float

end Numeral

end ChangeStream
