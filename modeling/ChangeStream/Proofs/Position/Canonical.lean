import ChangeStream.Codec.Record
import ChangeStream.Proofs.Codec.Lawful
import ChangeStream.Proofs.Json.Text
import ChangeStream.Proofs.Position.Order
import ChangeStream.Proofs.Text.Bytes
import Mathlib.Data.List.Dedup

/-!
# Positions made of a list of components

A position is made of a list of components by setting one after the other, at once, from the offset
of an engine, or from a JSON object that names them. All of these give the same position. It has
each key of the list once, in the order of the bytes, with the last value that the list has for it,
and does not depend on the list otherwise.
-/

namespace ChangeStream.Position

open Codec

variable (pairs : List (String × String))

/-! ## Ways to make a position -/

theorem foldl_set : pairs.foldl (fun p pair => p.set pair.1 pair.2) empty = ofList pairs :=
  List.foldl_hom Position.mk fun _ _ => rfl

theorem ofOffset_map_some :
    ofOffset (pairs.map fun pair => (pair.1, some pair.2)) = ofList pairs := by
  simp [ofOffset, Function.comp_def]

/-- A component without a value is one with the text for being unset. -/
theorem ofOffset_getD (offset : List (String × Option String)) :
    ofOffset offset =
      ofOffset (offset.map fun component => (component.1, some (component.2.getD unset))) := by
  simp [ofOffset, Function.comp_def]

/-- The object that names the components of a list one after the other. -/
def written : Json := .object (pairs.map fun pair => (pair.1, .string pair.2))

theorem ofJson_written : ofJson (written pairs) = .ok (ofList pairs) := by
  rw [ofJson, written, dictionary_texts]
  rfl

/-! ## What the position holds -/

theorem keys_perm_dedup : ((ofList pairs).toList.map Prod.fst).Perm (pairs.map Prod.fst).dedup := by
  have distinct := nodup_keys_of_ascending (ofList pairs).components.ascending
  apply (List.perm_ext_iff_of_nodup distinct (List.nodup_dedup _)).mpr
  intro key
  rw [List.mem_dedup]
  exact Dictionary.mem_keys_ofList

theorem get?_ofList (key : String) : (ofList pairs).get? key = pairs.reverse.lookup key :=
  Dictionary.get?_ofList_reverse pairs key

theorem eq_of_get? {p q : Position} (same : ∀ key, p.get? key = q.get? key) : p = q := by
  cases p
  cases q
  exact congrArg Position.mk (Dictionary.eq_of_get? same)

/-- However a position is made of a list of components, it is the same: its keys are those of the
list, each once and in the order of their bytes, with the last value that the list has for each.
Lists with the same last values make the same position, with the same texts. In an offset a
component without a value is one that has the text for being unset. -/
theorem canonical_however_made :
    pairs.foldl (fun p pair => p.set pair.1 pair.2) empty = ofList pairs ∧
      ofOffset (pairs.map fun pair => (pair.1, some pair.2)) = ofList pairs ∧
      Json.read? (written pairs).text = some (written pairs) ∧
      (∀ s, Json.read? s = some (written pairs) → ofText? ofJson s = some (ofList pairs)) ∧
      (ofList pairs).toList.Pairwise (fun a b => Text.bytes a.1 < Text.bytes b.1) ∧
      ((ofList pairs).toList.map Prod.fst).Perm (pairs.map Prod.fst).dedup ∧
      (ofList pairs).size = (pairs.map Prod.fst).dedup.length ∧
      (∀ key, (ofList pairs).get? key = pairs.reverse.lookup key) ∧
      (∀ others, (∀ key, others.reverse.lookup key = pairs.reverse.lookup key) →
        ofList others = ofList pairs ∧ (ofList others).text = (ofList pairs).text ∧
          (ofList others).toJson.text = (ofList pairs).toJson.text) ∧
      ∀ offset,
        ofOffset offset =
          ofOffset (offset.map fun component => (component.1, some (component.2.getD unset))) := by
  refine ⟨foldl_set pairs, ofOffset_map_some pairs, Json.read?_text (.texts pairs), ?decoding,
    ?ascending, keys_perm_dedup pairs, ?size, get?_ofList pairs, ?last, ofOffset_getD⟩
  case decoding =>
    intro s parsed
    rw [ofText?, parsed, Option.bind_some, ofJson_written]
    rfl
  case ascending => exact (ofList pairs).components.ascending.imp Text.bytes_lt_of_lt
  case size =>
    rw [← (keys_perm_dedup pairs).length_eq, List.length_map]
    rfl
  case last =>
    intro others same
    have equal : ofList others = ofList pairs := eq_of_get? fun key => by
      rw [get?_ofList, get?_ofList, same]
    rw [equal]
    exact ⟨rfl, rfl, rfl⟩

end ChangeStream.Position
