import Mathlib.Data.List.Basic
import Accumulator.Image
import Accumulator.Proofs.Numeral

/-!
# What a token denotes

A token is read by stripping its radix mark, checking what is left and reading it as a numeral,
which cannot fail behind the check (`read_digits`, `word?_eq`). `Spells` names the other direction:
the tokens that spell a word are its hexadecimal digits, padded with zeros to a width of at most
four, each letter in either case, behind one of the two marks or none. Every one of them denotes the
word (`Spells.word?_eq`). `IsWord` is the grammar of words and `Denotes` the number that one stands
for; nothing else is read as a word (`word?_eq_some_iff`).
-/

namespace Accumulator.Image

variable {cs token : List Char} {n : Nat} {w : UInt16}

/-! ## Radix marks -/

/-- What all is digits has no radix mark. -/
theorem stripMark_of_value? (h : value? cs = some n) : stripMark cs = cs := by
  have none (m : Char) (hm : Numeral.digit? 16 m = none) (rest : List Char) :
      value? ('0' :: m :: rest) = none := by
    rw [value?_zero_cons, value?, List.mapM_cons, hm]
    rfl
  unfold stripMark
  split
  · rw [none _ rfl] at h
    cases h
  · rw [none _ rfl] at h
    cases h
  · rfl

/-- Behind a mark, or none, stand the digits. -/
theorem stripMark_append {mark : List Char} (hmark : mark ∈ [[], ['0', 'x'], ['0', 'X']])
    (h : value? cs = some n) : stripMark (mark ++ cs) = cs := by
  simp only [List.mem_cons, List.not_mem_nil, or_false] at hmark
  rcases hmark with rfl | rfl | rfl
  · exact stripMark_of_value? h
  · rfl
  · rfl

/-- Every token is its digits behind one of the three marks, the empty one included. -/
theorem exists_mark_append (token : List Char) :
    ∃ mark ∈ [[], ['0', 'x'], ['0', 'X']], token = mark ++ stripMark token := by
  unfold stripMark
  split
  · exact ⟨['0', 'x'], by decide, rfl⟩
  · exact ⟨['0', 'X'], by decide, rfl⟩
  · exact ⟨[], by decide, rfl⟩

/-! ## Behind the mark -/

/-- The check asks for digits in base 16. -/
theorem all_isHexDigit_iff : cs.all isHexDigit = true ↔ ∀ c ∈ cs, c.toLower ∈ hexDigits := by
  have digit (c : Char) : isHexDigit c = true ↔ c.toLower ∈ hexDigits := by
    rw [isHexDigit, Option.isSome_iff_exists]
    simp only [digit?_eq_some_iff, exists_and_left, exists_eq', and_true]
  simp only [List.all_eq_true, digit]

/-- **Behind the check a numeral is always read**: one to four digits have room in a word. -/
theorem read_digits (nonempty : cs ≠ []) (short : cs.length ≤ 4)
    (digits : ∀ c ∈ cs, c.toLower ∈ hexDigits) :
    Numeral.read 16 (UInt16.size - 1) cs = .ok (hexNumber cs) := by
  have unsigned : Numeral.dropPlus cs = cs := Numeral.dropPlus_of_isDigit digits
  have room := hexNumber_lt digits short
  rw [Numeral.read_eq_ok_iff (by decide) le_rfl, unsigned]
  exact ⟨nonempty, digits, rfl, Nat.le_sub_one_of_lt room⟩

/-- A token denotes the number of one to four digits behind its radix mark. -/
theorem word?_eq (token : List Char) :
    word? token =
      if stripMark token ≠ [] ∧ (stripMark token).length ≤ 4 then
        (value? (stripMark token)).map .ofNat
      else none := by
  rw [word?]
  generalize stripMark token = cs
  by_cases sized : cs ≠ [] ∧ cs.length ≤ 4
  swap
  · have refused : cs = [] ∨ 4 < cs.length := by rwa [not_and_or, not_not, not_le] at sized
    rw [if_neg sized, if_pos]
    simp only [Bool.or_eq_true, List.isEmpty_iff, decide_eq_true_eq]
    exact .inl refused
  · rw [if_pos sized]
    by_cases digits : ∀ c ∈ cs, c.toLower ∈ hexDigits
    · have checked : ¬ (cs.isEmpty || 4 < cs.length || !cs.all isHexDigit) = true := by
        simp [sized.1, sized.2, all_isHexDigit_iff.2 digits]
      rw [if_neg checked, read_digits sized.1 sized.2 digits,
        value?_eq_some_iff.2 ⟨digits, rfl⟩]
      rfl
    · have none : value? cs = none := by
        rw [Option.eq_none_iff_forall_ne_some]
        exact fun n read => digits (value?_eq_some_iff.1 read).1
      have refused : (cs.isEmpty || 4 < cs.length || !cs.all isHexDigit) = true := by
        simp [mt all_isHexDigit_iff.1 digits]
      rw [if_pos refused, none]
      rfl

/-! ## Spellings -/

/-- The token spells the word: its digits, padded to a width of at most four and with letters in
either case, stand behind `0x`, `0X` or no mark. -/
def Spells (w : UInt16) (token : List Char) : Prop :=
  ∃ mark ∈ [[], ['0', 'x'], ['0', 'X']], ∃ width ≤ 4, ∃ digits : List Char,
    digits.map Char.toLower = Hex.digits width w.toNat ∧ token = mark ++ digits

/-- **A token that spells a word denotes it.** -/
theorem Spells.word?_eq (h : Spells w token) : word? token = some w := by
  obtain ⟨mark, hmark, width, hwidth, digits, lower, rfl⟩ := h
  have value : value? digits = some w.toNat := by
    rw [← value?_map_toLower, lower, value?_digits]
  have strip : stripMark (mark ++ digits) = digits := stripMark_append hmark value
  have length : digits.length = (Hex.digits width w.toNat).length := by
    rw [← lower, List.length_map]
  have short : (Nat.toDigits 16 w.toNat).length ≤ 4 :=
    (Nat.length_toDigits_le_iff (by decide) (by decide)).2 w.toNat_lt
  have nonempty : 0 < (Nat.toDigits 16 w.toNat).length := List.length_pos_iff.2 Nat.toDigits_ne_nil
  rw [Hex.digits, List.length_leftpad] at length
  rw [Image.word?_eq, strip, value, if_pos, Option.map_some, UInt16.ofNat_toNat]
  exact ⟨List.length_pos_iff.1 (by omega), by omega⟩

/-! ## The grammar of words -/

/-- The token is a word: one to four digits, and nothing else, behind one radix mark or none. -/
def IsWord (token : List Char) : Prop :=
  ∃ mark ∈ [[], ['0', 'x'], ['0', 'X']], ∃ digits : List Char, token = mark ++ digits ∧
    digits ≠ [] ∧ digits.length ≤ 4 ∧ ∀ c ∈ digits, c.toLower ∈ hexDigits

/-- The token is a word, and its digits denote `w`. -/
def Denotes (token : List Char) (w : UInt16) : Prop :=
  ∃ mark ∈ [[], ['0', 'x'], ['0', 'X']], ∃ digits : List Char, token = mark ++ digits ∧
    digits ≠ [] ∧ digits.length ≤ 4 ∧ (∀ c ∈ digits, c.toLower ∈ hexDigits) ∧
    w.toNat = hexNumber digits

/-- Every word denotes a number that fits. -/
theorem isWord_iff : IsWord token ↔ ∃ w, Denotes token w := by
  constructor
  · rintro ⟨mark, hmark, cs, whole, nonempty, short, digits⟩
    refine ⟨.ofNat (hexNumber cs), mark, hmark, cs, whole, nonempty, short, digits, ?_⟩
    exact Nat.mod_eq_of_lt (hexNumber_lt digits short)
  · rintro ⟨w, mark, hmark, cs, whole, nonempty, short, digits, -⟩
    exact ⟨mark, hmark, cs, whole, nonempty, short, digits⟩

/-- **A token is read as the word that it denotes**, and as none if it denotes none. -/
theorem word?_eq_some_iff : word? token = some w ↔ Denotes token w := by
  constructor
  · intro h
    obtain ⟨mark, hmark, whole⟩ := exists_mark_append token
    rw [word?_eq, Option.ite_none_right_eq_some] at h
    obtain ⟨⟨nonempty, short⟩, read⟩ := h
    obtain ⟨n, value, rfl⟩ := Option.map_eq_some_iff.1 read
    obtain ⟨digits, rfl⟩ := value?_eq_some_iff.1 value
    refine ⟨mark, hmark, stripMark token, whole, nonempty, short, digits, ?_⟩
    exact Nat.mod_eq_of_lt (hexNumber_lt digits short)
  · rintro ⟨mark, hmark, cs, rfl, nonempty, short, digits, number⟩
    have value : value? cs = some w.toNat := value?_eq_some_iff.2 ⟨digits, number.symm⟩
    rw [word?_eq, stripMark_append hmark value, if_pos ⟨nonempty, short⟩, value, Option.map_some,
      UInt16.ofNat_toNat]

end Accumulator.Image
