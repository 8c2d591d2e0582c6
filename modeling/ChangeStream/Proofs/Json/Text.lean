import ChangeStream.Json.Printer
import ChangeStream.Json.Reader
import ChangeStream.Proofs.Text.Digits
import Mathlib.Tactic.SplitIfs

/-!
# Reading what was written

A JSON text that was written is read back as the tree that it was written from. The reader undoes
the escapes of every character, ends a number where the writer ended it, and has a bound on its
phrases that no text exceeds. Only numbers that were written in full come back, which doubles are
not, and a tree must denote something.
-/

namespace ChangeStream.Json

open Digits (value_toDigits repr_toList)

/-! ## Strings -/

theorem hexValue?_hexDigit : ∀ n < 16, hexValue? (hexDigit n) = some n := by
  decide

/-- Four digits with leading zeros denote a character below the surrogates. -/
theorem hexUnit?_hexDigit {n : Nat} (small : n < 256) :
    hexUnit? '0' '0' (hexDigit (n / 16)) (hexDigit (n % 16)) = some (.char (Char.ofNat n)) := by
  have zero : hexValue? '0' = some 0 := by decide
  have parts : 16 * (n / 16) + n % 16 = n := Nat.div_add_mod n 16
  have below : ¬(0xD800 ≤ n ∧ n < 0xE000) := by omega
  simp [hexUnit?, zero, hexValue?_hexDigit (n / 16) (by omega),
    hexValue?_hexDigit (n % 16) (by omega), parts, below]

theorem readUnits_letter {letter c : Char} (escaped : escaped? letter = some c) (rest : List Char) :
    readUnits ('\\' :: letter :: rest) = (readUnits rest).map fun (units, rest) =>
      (.char c :: units, rest) := by
  have noNumber : letter ≠ 'u' := by
    rintro rfl
    cases escaped
  rw [readUnits]
  · simp only [escaped]
    cases readUnits rest <;> rfl
  · simp [noNumber]

theorem readUnits_plain {c : Char} (quote : c ≠ '"') (backslash : c ≠ '\\') (printable : ¬c < ' ')
    (rest : List Char) :
    readUnits (c :: rest) = (readUnits rest).map fun (units, rest) => (.char c :: units, rest) := by
  rw [readUnits]
  · simp only [printable, backslash, decide_false, beq_iff_eq, Bool.false_or, if_false]
    cases readUnits rest <;> rfl
  all_goals simp [quote, backslash]

theorem readUnits_escape (c : Char) (rest : List Char) :
    readUnits (escape c ++ rest) = (readUnits rest).map fun (units, rest) =>
      (.char c :: units, rest) := by
  unfold escape
  split_ifs with quote backslash backspace feed newline carriage tab control
  · exact readUnits_letter (by rw [quote]; rfl) rest
  · exact readUnits_letter (by rw [backslash]; rfl) rest
  · exact readUnits_letter (by rw [backspace]; rfl) rest
  · exact readUnits_letter (by rw [feed]; rfl) rest
  · exact readUnits_letter (by rw [newline]; rfl) rest
  · exact readUnits_letter (by rw [carriage]; rfl) rest
  · exact readUnits_letter (by rw [tab]; rfl) rest
  · have small : c.toNat < 256 := Nat.lt_trans (show c.toNat < 32 from control) (by decide)
    have unit := hexUnit?_hexDigit small
    rw [Char.ofNat_toNat] at unit
    change readUnits
      ('\\' :: 'u' :: '0' :: '0' :: hexDigit (c.toNat / 16) :: hexDigit (c.toNat % 16) :: rest) = _
    rw [readUnits]
    simp only [unit]
    cases readUnits rest <;> rfl
  · exact readUnits_plain quote backslash control rest

theorem readUnits_flatMap_escape (cs rest : List Char) :
    readUnits (cs.flatMap escape ++ '"' :: rest) = some (cs.map .char, rest) := by
  induction cs with
  | nil => rfl
  | cons c cs ih =>
    rw [List.flatMap_cons, List.append_assoc, readUnits_escape, ih]
    rfl

@[simp] theorem denoted?_map_char (cs : List Char) : denoted? (cs.map .char) = some cs := by
  induction cs with
  | nil => rfl
  | cons c cs ih => simp [denoted?, ih]

/-- A string is read to its closing quote, and every escape is undone. -/
theorem readString_escape (s : String) (rest : List Char) :
    readString (s.toList.flatMap escape ++ '"' :: rest) = some (some s, rest) := by
  simp [readString, readUnits_flatMap_escape]

/-! ## Numbers -/

theorem exists_digit (n : Nat) :
    ∃ d digits, Nat.toDigits 10 n = d :: digits ∧ d.isDigit = true := by
  obtain ⟨d, digits, hdigits⟩ := List.exists_cons_of_ne_nil (Nat.toDigits_ne_nil (n := n) (b := 10))
  exact ⟨d, digits, hdigits,
    Nat.isDigit_of_mem_toDigits (by decide) (by decide) (hdigits ▸ List.mem_cons_self)⟩

/-- Only zero is written with a leading zero. -/
theorem head?_toDigits_ne_zero {n : Nat} (positive : 0 < n) :
    (Nat.toDigits 10 n).head? ≠ some '0' := by
  induction n using Nat.strongRecOn with
  | _ n ih =>
    rw [Nat.toDigits_eq_if (by decide)]
    split
    · next single =>
      have digit : ∀ n < 10, 0 < n → Nat.digitChar n ≠ '0' := by decide
      simpa using digit n single positive
    · have first := ih (n / 10) (by omega) (by omega)
      obtain ⟨d, digits, hdigits, -⟩ := exists_digit (n / 10)
      rw [hdigits] at first ⊢
      exact first

/-- What may stand behind a tree inside another one, or the end of the text. -/
def Follows (rest : List Char) : Prop :=
  ∀ c ∈ rest.head?, c = ',' ∨ c = ']' ∨ c = '\x7d'

theorem takeDigits_append {digits rest : List Char} (all : ∀ c ∈ digits, c.isDigit = true)
    (follows : Follows rest) :
    takeDigits (digits ++ rest) = (digits, rest) := by
  have stops : rest.takeWhile Char.isDigit = [] ∧ rest.dropWhile Char.isDigit = rest := by
    cases rest with
    | nil => exact ⟨rfl, rfl⟩
    | cons c rest =>
      have noDigit : c.isDigit = false := by
        rcases follows c rfl with rfl | rfl | rfl <;> decide
      simp [noDigit]
  rw [takeDigits, List.takeWhile_append_of_pos all, List.dropWhile_append_of_pos all, stops.1,
    stops.2, List.append_nil]

theorem readWhole_toDigits (n : Nat) {rest : List Char} (follows : Follows rest) :
    readWhole (Nat.toDigits 10 n ++ rest) = some (Nat.toDigits 10 n, rest) := by
  have taken : takeDigits (Nat.toDigits 10 n ++ rest) = (Nat.toDigits 10 n, rest) :=
    takeDigits_append (fun c => Nat.isDigit_of_mem_toDigits (by decide) (by decide)) follows
  rcases Nat.eq_zero_or_pos n with rfl | positive
  · rfl
  · have head := head?_toDigits_ne_zero positive
    cases hdigits : Nat.toDigits 10 n with
    | nil => exact absurd hdigits Nat.toDigits_ne_nil
    | cons d digits =>
      rw [hdigits] at taken head
      have noZero : d ≠ '0' := by simpa using head
      rw [List.cons_append, readWhole]
      · rw [readDigits, ← List.cons_append, taken]
      · simpa using noZero

theorem readFraction_of_follows {rest : List Char} (follows : Follows rest) :
    readFraction rest = some (none, rest) := by
  cases rest with
  | nil => rfl
  | cons c rest =>
    rcases follows c rfl with rfl | rfl | rfl <;> rfl

theorem readExponent_of_follows {rest : List Char} (follows : Follows rest) :
    readExponent rest = some (none, rest) := by
  cases rest with
  | nil => rfl
  | cons c rest =>
    rcases follows c rfl with rfl | rfl | rfl <;> rfl

theorem number?_natural {n : Nat} (fits : n < Numeral.wordLimit) :
    (Numeral.mk false (Nat.toDigits 10 n) none none).number? = some (.natural n) := by
  simp [Numeral.number?, value_toDigits, fits]

theorem number?_negative {n : Nat} (positive : 0 < n) (fits : n ≤ Nat.pow 2 63) :
    (Numeral.mk true (Nat.toDigits 10 n) none none).number? = some (.negative n) := by
  simp [Numeral.number?, value_toDigits, positive, fits]

theorem readNumeral_natural (n : Nat) {rest : List Char} (follows : Follows rest) :
    readNumeral (Nat.toDigits 10 n ++ rest) =
      some (⟨false, Nat.toDigits 10 n, none, none⟩, rest) := by
  have whole := readWhole_toDigits n follows
  obtain ⟨d, digits, hdigits, digit⟩ := exists_digit n
  have unsigned : d ≠ '-' := by
    rintro rfl
    cases digit
  rw [hdigits] at whole ⊢
  rw [List.cons_append] at whole ⊢
  simp [readNumeral, unsigned, whole, readFraction_of_follows follows,
    readExponent_of_follows follows]

theorem readNumeral_negative (n : Nat) {rest : List Char} (follows : Follows rest) :
    readNumeral ('-' :: Nat.toDigits 10 n ++ rest) =
      some (⟨true, Nat.toDigits 10 n, none, none⟩, rest) := by
  simp [readNumeral, readWhole_toDigits n follows, readFraction_of_follows follows,
    readExponent_of_follows follows]

/-! ## Trees -/

/-- Trees that are written in full: they denote something, and no double is among them. -/
inductive Exact : Json → Prop
  | null : Exact .null
  | bool (value : Bool) : Exact (.bool value)
  | natural {n : Nat} (fits : n < Numeral.wordLimit) : Exact (.number (.natural n))
  | negative {n : Nat} (positive : 0 < n) (fits : n ≤ Nat.pow 2 63) : Exact (.number (.negative n))
  | string (s : String) : Exact (.string s)
  | array {items : List Json} (each : ∀ item ∈ items, Exact item) : Exact (.array items)
  | object {members : List (String × Json)} (each : ∀ member ∈ members, Exact member.2) :
      Exact (.object members)

theorem Exact.texts (pairs : List (String × String)) :
    Exact (.object (pairs.map fun pair => (pair.1, .string pair.2))) := by
  apply Exact.object
  intro member listed
  obtain ⟨pair, _, rfl⟩ := List.mem_map.mp listed
  exact .string pair.2

theorem skipBlanks_cons {c : Char} (solid : isBlank c = false) (rest : List Char) :
    skipBlanks (c :: rest) = c :: rest := by
  simp [skipBlanks, solid]

theorem readTree_numeral {c : Char} {cs : List Char} (opens : c.isDigit = true ∨ c = '-')
    (bound : Nat) :
    readTree (bound + 1) (c :: cs) =
      (readNumeral (c :: cs)).map fun (numeral, rest) =>
        (numeral.number?.elim .meaningless .number, rest) := by
  have other : ∀ b : Char, b.isDigit = false → b ≠ '-' → c ≠ b := by
    rintro b noDigit noMinus rfl
    rcases opens with digit | minus
    · rw [noDigit] at digit
      cases digit
    · exact noMinus minus
  have solid : isBlank c = false := by
    simp [isBlank, other ' ' rfl (by decide), other '\t' rfl (by decide),
      other '\n' rfl (by decide), other '\r' rfl (by decide)]
  rw [readTree, skipBlanks_cons solid]
  -- No other phrase begins with a digit or a minus sign.
  split
  · next h => exact absurd (List.cons.inj h).1 (other 'n' rfl (by decide))
  · next h => exact absurd (List.cons.inj h).1 (other 't' rfl (by decide))
  · next h => exact absurd (List.cons.inj h).1 (other 'f' rfl (by decide))
  · next h => exact absurd (List.cons.inj h).1 (other '"' rfl (by decide))
  · next h => exact absurd (List.cons.inj h).1 (other '[' rfl (by decide))
  · next h => exact absurd (List.cons.inj h).1 (other '\x7b' rfl (by decide))
  · cases readNumeral (c :: cs) <;> rfl

/-- A tree is read back from its characters, whatever follows it. -/
def ReadsBack (j : Json) : Prop :=
  ∀ bound rest, 2 * (characters j).length ≤ bound → Follows rest →
    readTree bound (characters j ++ rest) = some (j, rest)

theorem itemCharacters_cons_cons (first second : Json) (items : List Json) :
    itemCharacters (first :: second :: items) =
      characters first ++ ',' :: itemCharacters (second :: items) := by
  simp [itemCharacters]

theorem memberCharacters_cons_cons (first second : String × Json) (members : List (String × Json)) :
    memberCharacters (first :: second :: members) =
      stringText first.1 ++ ':' :: characters first.2 ++
        ',' :: memberCharacters (second :: members) := by
  simp [memberCharacters]

/-- Each item takes one phrase besides its own, which the bracket or the comma
behind it pays for. -/
theorem readItems_characters {first : Json} {items : List Json}
    (each : ∀ item ∈ first :: items, ReadsBack item) {bound : Nat}
    (enough : 2 * (itemCharacters (first :: items)).length ≤ bound) (rest : List Char) :
    readItems (bound + 1) (itemCharacters (first :: items) ++ ']' :: rest) =
      some (first :: items, rest) := by
  induction items generalizing first bound with
  | nil =>
    rw [itemCharacters] at enough ⊢
    have here : readTree bound (characters first ++ ']' :: rest) = some (first, ']' :: rest) :=
      each first (by simp) bound _ enough (by simp [Follows])
    simp [readItems, here, skipBlanks_cons (show isBlank ']' = false from rfl)]
  | cons second items ih =>
    obtain ⟨hfirst, others⟩ := List.forall_mem_cons.mp each
    rw [itemCharacters_cons_cons, List.length_append, List.length_cons] at enough
    rw [itemCharacters_cons_cons, List.append_assoc, List.cons_append]
    obtain ⟨bound, rfl⟩ : ∃ fewer, bound = fewer + 1 := ⟨bound - 1, by omega⟩
    have here :
        readTree (bound + 1)
          (characters first ++ ',' :: (itemCharacters (second :: items) ++ ']' :: rest)) =
        some (first, ',' :: (itemCharacters (second :: items) ++ ']' :: rest)) :=
      hfirst _ _ (by omega) (by simp [Follows])
    have later := @ih second others bound (by omega)
    rw [readItems, here]
    simp [skipBlanks_cons (show isBlank ',' = false from rfl), later]

theorem readMembers_last {key : String} {item : Json} {bound : Nat} {cs rest : List Char}
    (here : readTree bound cs = some (item, '\x7d' :: rest)) :
    readMembers (bound + 1) (stringText key ++ ':' :: cs) = some ([(some key, item)], rest) := by
  rw [readMembers]
  simp [stringText, readString_escape, here, skipBlanks_cons (show isBlank '"' = false from rfl),
    skipBlanks_cons (show isBlank ':' = false from rfl),
    skipBlanks_cons (show isBlank '\x7d' = false from rfl)]

theorem readMembers_further {key : String} {item : Json} {bound : Nat} {cs rest : List Char}
    (here : readTree bound cs = some (item, ',' :: rest)) :
    readMembers (bound + 1) (stringText key ++ ':' :: cs) =
      (readMembers bound rest).map fun (members, rest) => ((some key, item) :: members, rest) := by
  rw [readMembers]
  simp [stringText, readString_escape, here, skipBlanks_cons (show isBlank '"' = false from rfl),
    skipBlanks_cons (show isBlank ':' = false from rfl),
    skipBlanks_cons (show isBlank ',' = false from rfl)]
  cases readMembers bound rest <;> rfl

theorem readMembers_characters {first : String × Json} {members : List (String × Json)}
    (each : ∀ member ∈ first :: members, ReadsBack member.2) {bound : Nat}
    (enough : 2 * (memberCharacters (first :: members)).length ≤ bound) (rest : List Char) :
    readMembers (bound + 1) (memberCharacters (first :: members) ++ '\x7d' :: rest) =
      some ((first :: members).map fun member => (some member.1, member.2), rest) := by
  induction members generalizing first bound with
  | nil =>
    simp only [memberCharacters, List.length_append, List.length_cons] at enough
    rw [memberCharacters, List.append_assoc, List.cons_append]
    exact readMembers_last (each first (by simp) bound _ (by omega) (by simp [Follows]))
  | cons second members ih =>
    obtain ⟨hfirst, others⟩ := List.forall_mem_cons.mp each
    rw [memberCharacters_cons_cons] at enough ⊢
    simp only [List.length_append, List.length_cons] at enough
    obtain ⟨bound, rfl⟩ : ∃ fewer, bound = fewer + 1 := ⟨bound - 1, by omega⟩
    have later := @ih second others bound (by omega)
    have here := hfirst (bound + 1)
      (',' :: (memberCharacters (second :: members) ++ '\x7d' :: rest)) (by omega)
      (by simp [Follows])
    have step := @readMembers_further first.1 first.2 _ _ _ here
    rw [later] at step
    simpa using step

@[simp] theorem ofMembers_map_some (members : List (String × Json)) :
    ofMembers (members.map fun member => (some member.1, member.2)) = .object members := by
  have whole : (members.map fun member => (some member.1, member.2)).mapM
      (fun member : Option String × Json => member.1.map fun key => (key, member.2)) =
        some members := by
    induction members with
    | nil => rfl
    | cons member members ih => simp [ih]
  rw [ofMembers, whole]

theorem isBlank_of_isDigit {c : Char} (digit : c.isDigit = true) : isBlank c = false := by
  rw [Bool.eq_false_iff]
  intro blank
  simp only [isBlank, Bool.or_eq_true, beq_iff_eq] at blank
  rcases blank with ((rfl | rfl) | rfl) | rfl <;> cases digit

/-- No tree is written with a blank or a closing bracket in front. -/
theorem characters_opens {j : Json} (exact : j.Exact) :
    ∃ c rest, characters j = c :: rest ∧ isBlank c = false ∧ c ≠ ']' := by
  cases exact with
  | natural fits =>
    obtain ⟨d, digits, hdigits, digit⟩ := exists_digit _
    refine ⟨d, digits, (repr_toList _).trans hdigits, isBlank_of_isDigit digit, ?_⟩
    rintro rfl
    cases digit
  | bool value => cases value <;> exact ⟨_, _, rfl, by decide⟩
  | null | negative | string | array | object => exact ⟨_, _, rfl, by decide⟩

theorem itemCharacters_opens {first : Json} {items : List Json} (exact : first.Exact) :
    ∃ c rest, itemCharacters (first :: items) = c :: rest ∧ isBlank c = false ∧ c ≠ ']' := by
  obtain ⟨c, cs, opens, solid, inside⟩ := characters_opens exact
  cases items with
  | nil => exact ⟨c, cs, opens, solid, inside⟩
  | cons second items =>
    refine ⟨c, cs ++ ',' :: itemCharacters (second :: items), ?_, solid, inside⟩
    rw [itemCharacters_cons_cons, opens, List.cons_append]

theorem memberCharacters_opens (first : String × Json) (members : List (String × Json)) :
    ∃ rest, memberCharacters (first :: members) = '"' :: rest := by
  cases members with
  | nil => exact ⟨_, rfl⟩
  | cons second members => exact ⟨_, memberCharacters_cons_cons first second members⟩

/-- A text has at least one character, so that there is a phrase left for its tree. -/
theorem ReadsBack.of_succ {j : Json} (exact : j.Exact)
    (back : ∀ bound rest, 2 * (characters j).length ≤ bound + 1 → Follows rest →
      readTree (bound + 1) (characters j ++ rest) = some (j, rest)) : ReadsBack j := by
  intro bound rest enough follows
  obtain ⟨c, cs, opens, -⟩ := characters_opens exact
  rw [opens, List.length_cons] at enough
  obtain ⟨bound, rfl⟩ : ∃ fewer, bound = fewer + 1 := ⟨bound - 1, by omega⟩
  exact back bound rest (by rw [opens, List.length_cons]; exact enough) follows

theorem readTree_bracket {c : Char} (solid : isBlank c = false) (inside : c ≠ ']') (bound : Nat)
    (cs : List Char) :
    readTree (bound + 1) ('[' :: c :: cs) =
      (readItems bound (c :: cs)).map fun (items, rest) => (.array items, rest) := by
  rw [readTree, skipBlanks_cons (by decide)]
  simp only [skipBlanks_cons solid]
  split
  · next closed => exact absurd (List.cons.inj closed).1 inside
  · cases readItems bound (c :: cs) <;> rfl

theorem readTree_brace {c : Char} (solid : isBlank c = false) (inside : c ≠ '\x7d') (bound : Nat)
    (cs : List Char) :
    readTree (bound + 1) ('\x7b' :: c :: cs) =
      (readMembers bound (c :: cs)).map fun (members, rest) => (ofMembers members, rest) := by
  rw [readTree, skipBlanks_cons (by decide)]
  simp only [skipBlanks_cons solid]
  split
  · next closed => exact absurd (List.cons.inj closed).1 inside
  · cases readMembers bound (c :: cs) <;> rfl

theorem readsBack {j : Json} (exact : j.Exact) : ReadsBack j := by
  -- By induction on the tree, with whatever may follow it: a number ends only where something else
  -- begins.
  induction exact with
  | null =>
    apply ReadsBack.of_succ .null
    intro bound rest enough follows
    rfl
  | bool value =>
    apply ReadsBack.of_succ (.bool value)
    intro bound rest enough follows
    cases value <;> rfl
  | @natural n fits =>
    apply ReadsBack.of_succ (.natural fits)
    intro bound rest enough follows
    obtain ⟨d, digits, hdigits, digit⟩ := exists_digit n
    have numeral := readNumeral_natural n follows
    rw [characters, numberText, repr_toList]
    rw [hdigits, List.cons_append] at numeral ⊢
    rw [readTree_numeral (.inl digit), numeral, ← hdigits]
    simp [number?_natural fits]
  | @negative n positive fits =>
    apply ReadsBack.of_succ (.negative positive fits)
    intro bound rest enough follows
    rw [characters, numberText, repr_toList, List.cons_append,
      readTree_numeral (.inr rfl), ← List.cons_append, readNumeral_negative n follows]
    simp [number?_negative positive fits]
  | string s =>
    apply ReadsBack.of_succ (.string s)
    intro bound rest enough follows
    rw [characters, stringText, List.cons_append, List.cons_append, readTree,
      skipBlanks_cons (by decide)]
    simp [readString_escape]
  | @array items exact each =>
    apply ReadsBack.of_succ (.array exact)
    intro bound rest enough follows
    cases items with
    | nil => rfl
    | cons first items =>
      obtain ⟨c, cs, opens, solid, inside⟩ :=
        @itemCharacters_opens first items (exact first List.mem_cons_self)
      simp only [characters, List.length_append, List.length_cons, List.length_nil] at enough
      obtain ⟨bound, rfl⟩ : ∃ fewer, bound = fewer + 1 := ⟨bound - 1, by omega⟩
      have within := @readItems_characters first items each bound (by omega) rest
      rw [opens, List.cons_append] at within
      rw [characters, opens]
      simp only [List.cons_append, List.append_assoc, List.nil_append]
      rw [readTree_bracket solid inside, within]
      rfl
  | @object members exact each =>
    apply ReadsBack.of_succ (.object exact)
    intro bound rest enough follows
    cases members with
    | nil => rfl
    | cons first members =>
      obtain ⟨cs, opens⟩ := memberCharacters_opens first members
      simp only [characters, List.length_append, List.length_cons, List.length_nil] at enough
      obtain ⟨bound, rfl⟩ : ∃ fewer, bound = fewer + 1 := ⟨bound - 1, by omega⟩
      have within := @readMembers_characters first members each bound (by omega) rest
      rw [opens, List.cons_append] at within
      rw [characters, opens]
      simp only [List.cons_append, List.append_assoc, List.nil_append]
      rw [readTree_brace (by decide) (by decide), within, Option.map_some]
      simp only [ofMembers_map_some]

/-- A tree that is written in full is read back. -/
theorem read?_text {j : Json} (exact : j.Exact) : read? j.text = some j := by
  have whole := readsBack exact (2 * (characters j).length + 2) [] (by omega) (by simp [Follows])
  rw [List.append_nil] at whole
  rw [read?, text, String.toList_ofList]
  simp only [whole]
  rfl

end ChangeStream.Json
