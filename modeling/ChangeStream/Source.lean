import ChangeStream.Dictionary

/-!
# The captured source

The name of a database and the attributes that single out a part of it. The engine is told both.
-/

namespace ChangeStream

/-- The identity of a captured source. -/
structure Source where
  name : String
  partition : Dictionary String
deriving DecidableEq

namespace Source

/-- The source of a name, without attributes. -/
def named (name : String) : Source := ⟨name, .empty⟩

/-- The source with an attribute set. -/
def withPartition (source : Source) (key value : String) : Source :=
  { source with partition := source.partition.insert key value }

/-- The source that nothing is known of. -/
def unknown : Source := named ""

end Source

end ChangeStream
