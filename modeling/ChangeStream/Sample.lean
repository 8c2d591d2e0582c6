import ChangeStream.Range
import ChangeStream.Record

/-!
# Sample positions and changes

Positions that consist of a system change number alone, inserts observed there, and a split
between two of them.
-/

namespace ChangeStream.Sample

/-- The position of a system change number. -/
def scn (n : Nat) : Position := Position.empty.set "scn" (Nat.repr n)

/-- The eight bytes of a 64-bit word, the most significant first. -/
def wordBytes (n : Nat) : List UInt8 :=
  (List.range 8).map fun i => UInt8.ofNat (n / Nat.pow 256 (7 - i) % 256)

/-- An insert into a table at a system change number, which is also its payload. -/
def insert (table : String) (number : Nat) : Change :=
  { table, op := .insert, position := scn number, payload := wordBytes number }

/-- The split from 100 to 200. -/
def split : Range :=
  ⟨⟨"split-0"⟩, scn 100, .bounded (scn 200), fun _ eq => RangeEnd.bounded.inj eq ▸ by decide⟩

end ChangeStream.Sample
