import ChangeStream.Text.Digits
import Mathlib.Algebra.Group.Nat.Defs
import Mathlib.Data.List.Basic

/-!
# Numerals and the numbers they denote

A numeral denotes less than the power of ten that its length names, and at least the power below
that if it does not begin with a zero. So numerals without leading zeros are in the order of their
lengths, and those of one length in the order of their first different digits, which is the order of
the numbers. Leading zeros do not count.
-/

namespace ChangeStream.Digits

/-! ## Values -/

/-- The number that a digit stands for. -/
def digitValue (c : Char) : Nat := c.toNat - '0'.toNat

theorem digitValue_lt {c : Char} (digit : c.isDigit = true) : digitValue c < 10 := by
  have zero : '0'.toNat = 48 := rfl
  have nine : '9'.toNat = 57 := rfl
  have range := Char.isDigit_iff_toNat.mp digit
  rw [digitValue]
  omega

theorem digitValue_lt_iff {c d : Char} (hc : c.isDigit = true) (hd : d.isDigit = true) :
    digitValue c < digitValue d ↔ c < d := by
  have left := Char.isDigit_iff_toNat.mp hc
  have right := Char.isDigit_iff_toNat.mp hd
  have order : c < d ↔ c.toNat < d.toNat := UInt32.lt_iff_toNat_lt
  rw [order, digitValue, digitValue]
  omega

theorem digitValue_inj {c d : Char} (hc : c.isDigit = true) (hd : d.isDigit = true) :
    digitValue c = digitValue d ↔ c = d := by
  have left := Char.isDigit_iff_toNat.mp hc
  have right := Char.isDigit_iff_toNat.mp hd
  rw [← Char.toNat_inj, digitValue, digitValue]
  omega

theorem digitValue_pos {c : Char} (digit : c.isDigit = true)
    (nonzero : c ≠ '0') : 0 < digitValue c := by
  have range := Char.isDigit_iff_toNat.mp digit
  have other : c.toNat ≠ '0'.toNat := fun same => nonzero (Char.toNat_inj.mp same)
  rw [digitValue]
  omega

/-- The leading digit counts as often as the power of ten of its place says. -/
theorem value_cons (c : Char) (cs : List Char) :
    value (c :: cs) = 10 ^ cs.length * digitValue c + value cs := by
  change Nat.ofDigitChars 10 cs (10 * 0 + digitValue c) =
    10 ^ cs.length * digitValue c + Nat.ofDigitChars 10 cs 0
  rw [Nat.ofDigitChars_eq_ofDigitChars_zero, Nat.mul_zero, Nat.zero_add]

theorem value_toDigits (n : Nat) : value (Nat.toDigits 10 n) = n :=
  Nat.ofDigitChars_toDigits (by decide) (by decide)

theorem repr_toList (n : Nat) : (Nat.repr n).toList = Nat.toDigits 10 n := by
  simp [Nat.repr]

/-- A number is written as a numeral that denotes it. -/
theorem value_repr (n : Nat) : value (Nat.repr n).toList = n := by
  rw [repr_toList, value_toDigits]

theorem isNumeral_iff {s : String} :
    isNumeral s = true ↔ s ≠ "" ∧ ∀ c ∈ s.toList, c.isDigit = true := by
  simp [isNumeral]

@[simp] theorem isNumeral_repr (n : Nat) : isNumeral (Nat.repr n) = true := by
  rw [isNumeral_iff]
  constructor
  · intro nothing
    have digits := repr_toList n
    rw [nothing] at digits
    exact Nat.toDigits_ne_nil digits.symm
  · intro c listed
    rw [repr_toList] at listed
    exact Nat.isDigit_of_mem_toDigits (by decide) (by decide) listed

/-! ## Numerals of one length -/

variable {xs ys : List Char}

theorem value_lt (digits : ∀ c ∈ xs, c.isDigit = true) : value xs < 10 ^ xs.length := by
  induction xs with
  | nil => exact Nat.one_pos
  | cons c cs ih =>
    obtain ⟨digit, digits⟩ := List.forall_mem_cons.mp digits
    have leading : digitValue c + 1 ≤ 10 := digitValue_lt digit
    calc value (c :: cs)
        < 10 ^ cs.length * digitValue c + 10 ^ cs.length := by
          rw [value_cons]
          exact Nat.add_lt_add_left (ih digits) _
      _ = 10 ^ cs.length * (digitValue c + 1) := (Nat.mul_succ _ _).symm
      _ ≤ 10 ^ (c :: cs).length := Nat.mul_le_mul_left _ leading

/-- Of two numerals of one length the one with the lesser leading digit denotes the
lesser number. -/
theorem value_cons_lt_cons {c d : Char} {cs ds : List Char} (digits : ∀ c ∈ cs, c.isDigit = true)
    (length : cs.length = ds.length) (less : digitValue c < digitValue d) :
    value (c :: cs) < value (d :: ds) := by
  calc value (c :: cs)
      < 10 ^ cs.length * (digitValue c + 1) := by
        rw [value_cons, Nat.mul_succ]
        exact Nat.add_lt_add_left (value_lt digits) _
    _ ≤ 10 ^ ds.length * digitValue d := by
        rw [length]
        exact Nat.mul_le_mul_left _ less
    _ ≤ value (d :: ds) := by
        rw [value_cons]
        exact Nat.le_add_right _ _

/-- Numerals of one length are in the order of their first different digits. -/
theorem value_lt_value_iff (hx : ∀ c ∈ xs, c.isDigit = true) (hy : ∀ c ∈ ys, c.isDigit = true)
    (length : xs.length = ys.length) : value xs < value ys ↔ xs < ys := by
  induction xs generalizing ys with
  | nil =>
    cases ys with
    | nil => simp
    | cons d ds => cases length
  | cons c cs ih =>
    cases ys with
    | nil => cases length
    | cons d ds =>
      obtain ⟨hc, hcs⟩ := List.forall_mem_cons.mp hx
      obtain ⟨hd, hds⟩ := List.forall_mem_cons.mp hy
      have tails : cs.length = ds.length := Nat.succ.inj length
      rw [List.cons_lt_cons_iff, ← digitValue_lt_iff hc hd, ← digitValue_inj hc hd,
        ← ih hcs hds tails]
      rcases Nat.lt_trichotomy (digitValue c) (digitValue d) with less | same | greater
      · have values := value_cons_lt_cons hcs tails less
        exact iff_of_true values (.inl less)
      · rw [value_cons, value_cons, tails, same]
        simp
      · have values := value_cons_lt_cons hds tails.symm greater
        omega

theorem compareOfLessAndEq_eq (hx : ∀ c ∈ xs, c.isDigit = true) (hy : ∀ c ∈ ys, c.isDigit = true)
    (length : xs.length = ys.length) :
    compareOfLessAndEq xs ys = compare (value xs) (value ys) := by
  have forward := value_lt_value_iff hx hy length
  have backward := value_lt_value_iff hy hx length.symm
  rw [compareOfLessAndEq]
  rcases Nat.lt_trichotomy (value xs) (value ys) with less | same | greater
  · rw [if_pos (forward.mp less), Nat.compare_eq_lt.mpr less]
  · have notLess : ¬xs < ys := fun less => Nat.ne_of_lt (forward.mpr less) same
    have notGreater : ¬ys < xs := fun greater => Nat.ne_of_gt (backward.mpr greater) same
    have equal : xs = ys := List.le_antisymm (List.not_lt.mp notGreater) (List.not_lt.mp notLess)
    rw [if_neg notLess, if_pos equal, Nat.compare_eq_eq.mpr same]
  · have notLess : ¬xs < ys := fun less => Nat.lt_asymm greater (forward.mpr less)
    have other : xs ≠ ys := fun equal => Nat.lt_irrefl _ (equal ▸ greater)
    rw [if_neg notLess, if_neg other, Nat.compare_eq_gt.mpr greater]

/-! ## Leading zeros -/

/-- Leading zeros add nothing. -/
theorem value_significant (s : String) : value (significant s) = value s.toList := by
  rw [significant]
  induction s.toList with
  | nil => rfl
  | cons c cs ih =>
    by_cases zero : c = '0'
    · subst zero
      rw [List.dropWhile_cons_of_pos (by simp), ih, value_cons]
      simp [digitValue]
    · rw [List.dropWhile_cons_of_neg (by simpa using zero)]

theorem head_significant {s : String} {d : Char} {ds : List Char}
    (leading : significant s = d :: ds) : d ≠ '0' := by
  have first := List.head?_dropWhile_not (· = '0') s.toList
  rw [significant] at leading
  simpa [leading] using first

theorem isDigit_of_mem_significant {s : String} (numeral : isNumeral s = true) :
    ∀ c ∈ significant s, c.isDigit = true :=
  fun c listed => (isNumeral_iff.mp numeral).2 c (List.dropWhile_sublist _ |>.subset listed)

/-- A number with more significant digits is the greater one. -/
theorem value_lt_of_shorter {s t : String} (hs : isNumeral s = true) (ht : isNumeral t = true)
    (shorter : (significant s).length < (significant t).length) :
    value (significant s) < value (significant t) := by
  have bound := value_lt (isDigit_of_mem_significant hs)
  have digits := isDigit_of_mem_significant ht
  cases leading : significant t with
  | nil => simp [leading] at shorter
  | cons d ds =>
    rw [leading] at shorter digits
    have positive := digitValue_pos (digits d List.mem_cons_self) (head_significant leading)
    calc value (significant s)
        < 10 ^ (significant s).length := bound
      _ ≤ 10 ^ ds.length := Nat.pow_le_pow_right (by decide) (Nat.le_of_lt_succ shorter)
      _ ≤ 10 ^ ds.length * digitValue d := Nat.le_mul_of_pos_right _ positive
      _ ≤ value (d :: ds) := by
          rw [value_cons]
          exact Nat.le_add_right _ _

/-- Comparing by magnitude is comparing the numbers. -/
theorem compareMagnitude_eq {s t : String} (hs : isNumeral s = true) (ht : isNumeral t = true) :
    compareMagnitude s t = compare (value s.toList) (value t.toList) := by
  have digitsLeft := isDigit_of_mem_significant hs
  have digitsRight := isDigit_of_mem_significant ht
  rw [← value_significant s, ← value_significant t, compareMagnitude]
  rcases Nat.lt_trichotomy (significant s).length (significant t).length
    with shorter | length | longer
  · rw [Nat.compare_eq_lt.mpr shorter, Nat.compare_eq_lt.mpr (value_lt_of_shorter hs ht shorter)]
    rfl
  · rw [Nat.compare_eq_eq.mpr length]
    exact compareOfLessAndEq_eq digitsLeft digitsRight length
  · rw [Nat.compare_eq_gt.mpr longer, Nat.compare_eq_gt.mpr (value_lt_of_shorter ht hs longer)]
    rfl

end ChangeStream.Digits
