import ChangeStream.Dictionary

/-!
# Positions in a change log

A position is a set of named coordinates, such as a system change number, each with a text as
its value. The engine that reads the log decides which coordinates there are. A coordinate that
the engine reports without a value is kept under the text `Position.unset`, so that every
component has a value.
-/

namespace ChangeStream

/-- A set of log coordinates. -/
structure Position where
  components : Dictionary String
deriving DecidableEq

namespace Position

/-- The value of a component that was reported without one. -/
def unset : String := "null"

/-- The position without components. -/
def empty : Position := ⟨.empty⟩

/-- The position with one component set, the others as before. -/
def set (p : Position) (key value : String) : Position :=
  ⟨p.components.insert key value⟩

/-- The position of a list of components, the last value of a key winning. -/
def ofList (pairs : List (String × String)) : Position :=
  ⟨.ofList pairs⟩

/-- The position of an offset as an engine reports it, in which a component may lack a value. -/
def ofOffset (offset : List (String × Option String)) : Position :=
  ofList (offset.map fun component => (component.1, component.2.getD unset))

/-- The value of a component. -/
def get? (p : Position) (key : String) : Option String :=
  p.components.get? key

/-- The components in key order. -/
def toList (p : Position) : List (String × String) :=
  p.components.entries

/-- The number of components. -/
def size (p : Position) : Nat := p.components.size

/-- Whether there are no components. -/
def isEmpty (p : Position) : Bool := p.components.isEmpty

/-- The components in key order, each as `key=value`, between braces. -/
def text (p : Position) : String :=
  "\x7b" ++ ", ".intercalate (p.toList.map fun component => component.1 ++ "=" ++ component.2) ++
    "\x7d"

@[simp] theorem get?_set (p : Position) (key other value : String) :
    (p.set key value).get? other = if other = key then some value else p.get? other :=
  Dictionary.get?_insert p.components key other value

@[simp] theorem get?_empty (key : String) : empty.get? key = none := rfl

end Position

end ChangeStream
