/-!
# Durations

A length of time in whole seconds, which fit into 64 bits, and nanoseconds below one second.
-/

namespace ChangeStream

/-- Nanoseconds in a second. -/
def nanosPerSecond : Nat := 1000000000

/-- A length of time. -/
structure Duration where
  seconds : Nat
  nanos : Nat
  seconds_lt : seconds < Nat.pow 2 64
  nanos_lt : nanos < nanosPerSecond
deriving DecidableEq

namespace Duration

/-- The duration of so many seconds and nanoseconds, if the seconds still fit after the nanoseconds
of a second and more are carried over. -/
def ofParts? (seconds nanos : Nat) : Option Duration :=
  if h : seconds + nanos / nanosPerSecond < Nat.pow 2 64 then
    some ⟨seconds + nanos / nanosPerSecond, nanos % nanosPerSecond, h, Nat.mod_lt _ (by decide)⟩
  else none

/-- No time. -/
def zero : Duration := ⟨0, 0, by decide, by decide⟩

/-- So many milliseconds, below one second. -/
def ofMillis (n : Nat) (h : n < 1000 := by decide) : Duration :=
  ⟨0, n * 1000000, by decide, by unfold nanosPerSecond; omega⟩

/-- The whole length in nanoseconds. -/
def totalNanos (d : Duration) : Nat := d.seconds * nanosPerSecond + d.nanos

/-- The length in whole microseconds. -/
def micros (d : Duration) : Nat := d.totalNanos / 1000

/-- The duration of so many microseconds, if its seconds fit. -/
def ofMicros? (n : Nat) : Option Duration := ofParts? (n / 1000000) (n % 1000000 * 1000)

/-- The digits after the point, of a number of so many places, without trailing zeros. -/
def fractionDigits (n places : Nat) : List Char :=
  let digits := Nat.toDigits 10 n
  let padded := List.replicate (places - digits.length) '0' ++ digits
  (padded.reverse.dropWhile (· = '0')).reverse

/-- A whole part, the digits of a fraction if any are left, and a unit. -/
def measured (whole fraction places : Nat) (unit : String) : String :=
  let digits := fractionDigits fraction places
  Nat.repr whole ++ (if digits.isEmpty then "" else "." ++ String.ofList digits) ++ unit

/-- The text in the greatest unit that the duration reaches, of seconds, milliseconds, microseconds
and nanoseconds, with as many places as needed. -/
def text (d : Duration) : String :=
  if 0 < d.seconds then measured d.seconds d.nanos 9 "s"
  else if 1000000 ≤ d.nanos then measured (d.nanos / 1000000) (d.nanos % 1000000) 6 "ms"
  else if 1000 ≤ d.nanos then measured (d.nanos / 1000) (d.nanos % 1000) 3 "µs"
  else Nat.repr d.nanos ++ "ns"

end Duration

end ChangeStream
