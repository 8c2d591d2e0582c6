import ChangeStream.Number.Binary64

/-!
# The shortest decimal text of a double-precision number

The text has the fewest decimal digits that read back as the number, and of several such
decimals the one nearest to it. Positional notation is used from `1e-5` up to below `1e16`,
always with a digit after the point; outside that range there is a mark `e` and the exponent,
which always has a sign.
-/

namespace ChangeStream.Binary64

/-- A decimal: digits and a power of ten. -/
structure Decimal where
  digits : Nat
  exponent : Int
deriving DecidableEq

/-- How many decimal digits a number has. -/
def digitCount (n : Nat) : Nat := (Nat.toDigits 10 n).length

/-- The numbers that round to a given one, as bounds over a common denominator, and whether the
bounds themselves do. -/
structure Neighbourhood where
  low : Nat
  value : Nat
  high : Nat
  denominator : Nat
  closed : Bool

/-- The reals that round to the number lie half a step to each side of it; the step below a power of
two is half as wide. A quarter of a unit is the common measure. -/
def neighbourhood (x : Binary64) : Neighbourhood :=
  let step := Nat.pow 2 x.shift
  let below := if x.significand = Nat.pow 2 52 && x.shift != 0 then step else 2 * step
  { low := 4 * x.units - below
    value := 4 * x.units
    high := 4 * x.units + 2 * step
    denominator := 4 * unitsPerOne
    closed := x.significand % 2 == 0 }

/-- Whether a decimal lies in the neighbourhood. -/
def Neighbourhood.holds (n : Neighbourhood) (num den : Nat) : Bool :=
  let point := num * n.denominator
  if n.closed then n.low * den ≤ point && point ≤ n.high * den
  else n.low * den < point && point < n.high * den

/-- The decimal of `grid` places nearest to the value that reads back as it, if there is one: only
the two neighbours of the value on the grid can be. -/
def Neighbourhood.onGrid? (n : Neighbourhood) (grid : Int) : Option Decimal :=
  let up := Nat.pow 10 grid.toNat
  let down := Nat.pow 10 (-grid).toNat
  let lower := n.value * down / (n.denominator * up)
  let fits := fun digits => n.holds (digits * up) down
  let gap := fun digits =>
    let point := digits * up * n.denominator
    let value := n.value * down
    (point - value) + (value - point)
  match fits lower, fits (lower + 1) with
  | false, false => none
  | true, false => some ⟨lower, grid⟩
  | false, true => some ⟨lower + 1, grid⟩
  | true, true =>
    if gap lower < gap (lower + 1) then some ⟨lower, grid⟩
    else if gap (lower + 1) < gap lower then some ⟨lower + 1, grid⟩
    else some ⟨lower + lower % 2, grid⟩

/-- The exponent of the leading decimal digit of a number that is not zero. -/
def magnitudeOrder (x : Binary64) : Int :=
  (digitCount (x.units * Nat.pow 10 400 / unitsPerOne) : Int) - 401

/-- Tries ever finer grids, for at most `tries` of them; on the first one only the power of ten
above the value can be a hit. -/
def Neighbourhood.search (n : Neighbourhood) (order : Int) : Nat → Nat → Decimal
  | 0, places => ⟨n.value, order - places⟩
  | tries + 1, places =>
    match n.onGrid? (order + 1 - places) with
    | some d => d
    | none => n.search order tries (places + 1)

/-- The shortest decimal that reads back as the number. Seventeen digits always do. -/
def shortest (x : Binary64) : Decimal :=
  if x.isZero then ⟨0, 0⟩ else x.neighbourhood.search x.magnitudeOrder 18 0

/-- Zeros. -/
def zeros (n : Nat) : String := String.ofList (List.replicate n '0')

/-- The text of the magnitude. -/
def Decimal.text (d : Decimal) : String :=
  let digits := Nat.repr d.digits
  let count := digits.length
  let point := (count : Int) + d.exponent
  if 0 ≤ d.exponent ∧ point ≤ 16 then digits ++ zeros d.exponent.toNat ++ ".0"
  else if 0 < point ∧ point ≤ 16 then
    String.ofList (digits.toList.take point.toNat) ++ "." ++
      String.ofList (digits.toList.drop point.toNat)
  else if -5 < point ∧ point ≤ 0 then "0." ++ zeros (-point).toNat ++ digits
  else
    let leading := String.ofList (digits.toList.take 1)
    let rest := String.ofList (digits.toList.drop 1)
    let sign := if 0 < point then "+" else "-"
    leading ++ (if count = 1 then "" else "." ++ rest) ++ "e" ++ sign ++ Nat.repr (point - 1).natAbs

/-- The text of the number. -/
def text (x : Binary64) : String :=
  (if x.negative then "-" else "") ++ x.shortest.text

end ChangeStream.Binary64
