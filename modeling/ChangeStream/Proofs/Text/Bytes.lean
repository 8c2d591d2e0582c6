import Mathlib.Data.List.Basic
import Mathlib.Tactic.SplitIfs

/-!
# Texts as bytes

Texts are ordered by code point. As UTF-8 they are in the same order: of two different characters
the greater one has the greater byte where their bytes first differ, and they differ before either
of the two ends.
-/

namespace ChangeStream.Text

/-- The bytes of a text in UTF-8. -/
def bytes (s : String) : List UInt8 := s.toUTF8.data.toList

theorem bytes_eq (s : String) : bytes s = s.toList.flatMap String.utf8EncodeChar := by
  conv_lhs => rw [← String.ofList_toList (s := s)]
  rw [bytes, String.toUTF8_eq_toByteArray, String.toByteArray_ofList, List.utf8Encode,
    List.data_toByteArray]

/-- The lesser of two characters has the lesser bytes, whatever follows on either side. -/
theorem encoded_lt_of_lt {c d : Char} (less : c < d) (left right : List UInt8) :
    String.utf8EncodeChar c ++ left < String.utf8EncodeChar d ++ right := by
  have codes : c.val.toNat < d.val.toNat := UInt32.lt_iff_toNat_lt.mp less
  have limit : d.val.toNat < 0x110000 := by
    have valid := d.valid
    simp only [UInt32.isValidChar, Nat.isValidChar] at valid
    omega
  unfold String.utf8EncodeChar
  generalize c.val.toNat = m, d.val.toNat = n at codes limit
  dsimp only
  -- Where the lengths differ the first bytes do; of four bytes, which of them differ first depends
  -- on the codes.
  by_cases short : m ≤ 65535
  · split_ifs
    all_goals
      simp only [List.cons_append, List.nil_append, List.cons_lt_cons_iff,
        UInt8.lt_iff_toNat_lt, ← UInt8.toNat_inj, UInt8.toNat_ofNat', Nat.reducePow]
      omega
  · have long : ¬m ≤ 127 ∧ ¬m ≤ 2047 ∧ ¬n ≤ 127 ∧ ¬n ≤ 2047 ∧ ¬n ≤ 65535 := by omega
    simp only [short, long, if_false, List.cons_append, List.nil_append, List.cons_lt_cons_iff,
      UInt8.lt_iff_toNat_lt, ← UInt8.toNat_inj, UInt8.toNat_ofNat', Nat.reducePow]
    rcases Nat.lt_or_ge (m / 262144) (n / 262144) with first | first
    · left
      omega
    · right
      rcases Nat.lt_or_ge (m / 4096) (n / 4096) with second | second <;> omega

theorem flatMap_lt_of_lt {cs ds : List Char} (less : cs < ds) :
    cs.flatMap String.utf8EncodeChar < ds.flatMap String.utf8EncodeChar := by
  induction less with
  | @nil d ds =>
    obtain ⟨b, bs, encoded⟩ := List.exists_cons_of_ne_nil (String.utf8EncodeChar_ne_nil (c := d))
    rw [List.flatMap_cons, encoded]
    exact List.nil_lt_cons b _
  | rel before => exact encoded_lt_of_lt before _ _
  | cons _ ih => exact List.append_left_lt ih

theorem bytes_lt_of_lt {s t : String} (less : s < t) : bytes s < bytes t := by
  rw [bytes_eq, bytes_eq]
  exact flatMap_lt_of_lt less

/-- The order of code points is the order of bytes. -/
theorem bytes_lt_iff {s t : String} : bytes s < bytes t ↔ s < t := by
  refine ⟨fun less => ?_, bytes_lt_of_lt⟩
  rcases Std.lt_trichotomy s t with before | rfl | after
  · exact before
  · exact absurd less (List.lt_irrefl _)
  · exact absurd less (List.lt_asymm (bytes_lt_of_lt after))

theorem bytes_inj {s t : String} : bytes s = bytes t ↔ s = t := by
  refine ⟨fun same => ?_, congrArg bytes⟩
  rcases Std.lt_trichotomy s t with before | equal | after
  · exact absurd (same ▸ bytes_lt_of_lt before) (List.lt_irrefl _)
  · exact equal
  · exact absurd (same ▸ bytes_lt_of_lt after) (List.lt_irrefl _)

theorem compare_eq_compareOfLessAndEq (xs ys : List UInt8) :
    compare xs ys = compareOfLessAndEq xs ys := by
  induction xs generalizing ys with
  | nil => cases ys <;> simp [compareOfLessAndEq]
  | cons x xs ih =>
    cases ys with
    | nil => simp [compareOfLessAndEq]
    | cons y ys =>
      have first : compare x y = compareOfLessAndEq x y := rfl
      rw [List.compare_cons_cons, ih, first]
      simp only [compareOfLessAndEq, List.cons_lt_cons_iff, List.cons.injEq]
      rcases Std.lt_trichotomy x y with less | rfl | greater
      · simp [less]
      · simp
      · simp [Std.not_gt_of_lt greater, (Std.ne_of_lt greater).symm]

/-- Texts are compared as their bytes are, byte by byte. -/
theorem compare_bytes (s t : String) : compare (bytes s) (bytes t) = compare s t := by
  rw [compare_eq_compareOfLessAndEq]
  change _ = compareOfLessAndEq s t
  simp only [compareOfLessAndEq, bytes_lt_iff, bytes_inj]

end ChangeStream.Text
