import ChangeStream.Proofs.Position.Order
import ChangeStream.Proofs.Reading

/-!
# Components that are not set

Whether a position has reached another depends on what is set in the two of them. So it makes no
difference whether a component is unset or missing, be it in the position or in the target. Setting
a component that was not set loses no target, and a target that names less is still reached.
-/

namespace ChangeStream.Position

/-- More may be set in a position that has reached a target, and less in the target. -/
theorem hasReached_of_known {p q target lesser : Position}
    (higher : ∀ key x, known? (p.get? key) = some x → known? (q.get? key) = some x)
    (lower : ∀ key y, known? (lesser.get? key) = some y → known? (target.get? key) = some y)
    (reached : p.hasReached target = true) : q.hasReached lesser = true := by
  rw [hasReached_iff] at reached ⊢
  intro key y set
  obtain ⟨x, found, atLeast⟩ := reached key y (lower key y set)
  exact ⟨x, higher key x found, atLeast⟩

/-- Positions in which the same is set reach the same targets. -/
theorem hasReached_congr {p q target other : Position}
    (left : ∀ key, known? (p.get? key) = known? (q.get? key))
    (right : ∀ key, known? (target.get? key) = known? (other.get? key)) :
    p.hasReached target = q.hasReached other := by
  rw [Bool.eq_iff_iff]
  constructor
  · exact hasReached_of_known (fun key x found => left key ▸ found)
      (fun key y found => (right key).trans found)
  · exact hasReached_of_known (fun key x found => (left key).trans found)
      (fun key y found => right key ▸ found)

/-- A target of which one component is not set any more is still reached. -/
theorem hasReached_of_less {p target lesser : Position} {key : String}
    (free : known? (lesser.get? key) = none)
    (others : ∀ other, other ≠ key → lesser.get? other = target.get? other)
    (reached : p.hasReached target = true) :
    p.hasReached lesser = true := by
  refine hasReached_of_known (fun _ _ found => found) (fun other y found => ?_) reached
  have elsewhere : other ≠ key := by
    rintro rfl
    rw [free] at found
    cases found
  rwa [← others other elsewhere]

/-! ## Taking components away -/

/-- The position without its unset components. -/
def withoutUnset (p : Position) : Position :=
  ⟨p.components.filter fun _ value => value ≠ unset⟩

/-- The position without a component. -/
def erase (p : Position) (key : String) : Position :=
  ⟨p.components.filter fun other _ => other ≠ key⟩

theorem get?_withoutUnset (p : Position) (key : String) :
    p.withoutUnset.get? key = known? (p.get? key) :=
  p.components.get?_filter _ key

theorem get?_erase (p : Position) (key other : String) :
    (p.erase key).get? other = if other = key then none else p.get? other := by
  rw [get?, erase, Dictionary.get?_filter, get?]
  by_cases here : other = key
  · simp [here]
  · cases p.components.get? other <;> simp [here]

theorem known?_withoutUnset (p : Position) (key : String) :
    known? (p.withoutUnset.get? key) = known? (p.get? key) := by
  rw [get?_withoutUnset, known?, known?, Option.filter_filter]
  simp

/-! ## Offsets of an engine -/

/-- The value that an offset has for a component, the last report of it counting. -/
def reported? (offset : List (String × Option String)) (key : String) : Option String :=
  ((Dictionary.ofList offset).get? key).join

/-- What is reported without a value is not set. -/
theorem known?_ofOffset (offset : List (String × Option String)) (key : String) :
    known? ((ofOffset offset).get? key) = known? (reported? offset key) := by
  have found : (ofOffset offset).get? key =
      ((Dictionary.ofList offset).get? key).map (·.getD unset) :=
    Dictionary.get?_ofList_map (fun value : Option String => value.getD unset) offset key
  rw [found, reported?]
  cases (Dictionary.ofList offset).get? key with
  | none => rfl
  | some value => cases value <;> rfl

/-- It makes no difference to reaching whether a component is unset or missing. A target that was
reached still is when a component that was not set is set in the position, and when one is taken out
of the target or unset there. Offsets in which the same components have the same values bring a read
to its end alike, whether they name the others or not. -/
theorem reaching_monotone_with_unset_as_missing :
    (∀ p target : Position, p.withoutUnset.hasReached target = p.hasReached target ∧
        p.hasReached target.withoutUnset = p.hasReached target ∧
        p.withoutUnset.hasReached target.withoutUnset = p.hasReached target) ∧
      (∀ (p target : Position) key value, p.get? key = none ∨ p.get? key = some unset →
        p.hasReached target = true → (p.set key value).hasReached target = true) ∧
      (∀ (p target : Position) key, p.hasReached target = true →
        p.hasReached (target.erase key) = true ∧ p.hasReached (target.set key unset) = true) ∧
      ∀ offset other, (∀ key, reported? offset key = reported? other key) →
        (∀ target, (ofOffset offset).hasReached target = (ofOffset other).hasReached target) ∧
        ∀ reading : Reading, (reading.offer? (.advance (ofOffset offset))).1.isSome =
          (reading.offer? (.advance (ofOffset other))).1.isSome := by
  refine ⟨fun p target => ⟨?position, ?target, ?both⟩, ?setting,
    fun p target key reached => ⟨?erasing, ?unsetting⟩, ?offsets⟩
  case position => exact hasReached_congr p.known?_withoutUnset fun _ => rfl
  case target => exact hasReached_congr (fun _ => rfl) target.known?_withoutUnset
  case both => exact hasReached_congr p.known?_withoutUnset target.known?_withoutUnset
  case setting =>
    intro p target key value free
    refine hasReached_of_known (fun other x found => ?_) fun _ _ found => found
    have elsewhere : other ≠ key := by
      rintro rfl
      rw [known?_eq_none_iff.mpr free] at found
      cases found
    rwa [get?_set, if_neg elsewhere]
  case erasing =>
    have free : known? ((target.erase key).get? key) = none := by simp [get?_erase, known?]
    exact hasReached_of_less free (fun other elsewhere => by rw [get?_erase, if_neg elsewhere])
      reached
  case unsetting =>
    have free : known? ((target.set key unset).get? key) = none := by simp [known?]
    exact hasReached_of_less free (fun other elsewhere => by rw [get?_set, if_neg elsewhere])
      reached
  case offsets =>
    intro offset other same
    have known :
        ∀ key, known? ((ofOffset offset).get? key) = known? ((ofOffset other).get? key) := by
      intro key
      rw [known?_ofOffset, known?_ofOffset, same]
    have alike :
        ∀ target, (ofOffset offset).hasReached target = (ofOffset other).hasReached target :=
      fun target => hasReached_congr known fun _ => rfl
    refine ⟨alike, fun reading => ?_⟩
    rw [reading.isSome_offer?_advance, reading.isSome_offer?_advance, funext alike]

end ChangeStream.Position
