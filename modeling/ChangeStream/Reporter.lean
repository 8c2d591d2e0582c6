import ChangeStream.Log

/-!
# The slot for a fatal error

Of the errors reported before somebody asks, the first is kept: the later ones are mostly its
consequences and are only told to the log. Asking empties the slot.
-/

namespace ChangeStream

/-- Holds at most one error. -/
structure ErrorSlot where
  pending : Option FetchError
deriving DecidableEq

namespace ErrorSlot

/-- The slot without an error. -/
def empty : ErrorSlot := ⟨none⟩

/-- Whether there is an error. -/
def hasError (slot : ErrorSlot) : Bool := slot.pending.isSome

/-- Reports an error; what is told to the log about it. -/
def report (slot : ErrorSlot) (error : FetchError) : LogEvent × ErrorSlot :=
  match slot.pending with
  | some _ => (.errorDropped error, slot)
  | none => (.errorKept error, ⟨some error⟩)

/-- Takes the error out. -/
def take (slot : ErrorSlot) : Option FetchError × ErrorSlot := (slot.pending, empty)

end ErrorSlot

end ChangeStream
