import Mathlib.Data.List.TakeWhile
import Mathlib.Tactic.IntervalCases
import Accumulator.Address
import Accumulator.Command.Number
import Accumulator.Proofs.HexText

/-!
# Numbers on the command line

A number stands between blanks (`Trimmed`) and behind one of two marks for base 16 or none
(`Marked`); what is left is a numeral. Every text can be taken apart in this way, and in one way
only, so the numeral decides what the text is read as: an address, or one of three errors about the
text without the blanks (`number_law`). No text that is read as a number has a dot in it
(`dot_not_mem`).
-/

namespace Accumulator

variable {cs t : List Char}

/-! ## Blanks around a text -/

/-- What is left of a text without the blanks at its two ends. -/
structure Trimmed (cs t : List Char) : Prop where
  whole : ∃ front back, cs = front ++ t ++ back ∧ ∀ c ∈ front ++ back, isBlank c = true
  first : ∀ c ∈ t.head?, isBlank c = false
  last : ∀ c ∈ t.getLast?, isBlank c = false

/-- Nothing is dropped in front of a text that does not start with a blank. -/
theorem dropWhile_isBlank_of_head? (h : ∀ c ∈ t.head?, isBlank c = false) :
    t.dropWhile isBlank = t := by
  cases t with
  | nil => rfl
  | cons c t => exact List.dropWhile_cons_of_neg (by rw [h c rfl]; decide)

/-- Of the blanks around a text nothing is left. -/
theorem Trimmed.trimBlank_eq (h : Trimmed cs t) : trimBlank cs = t := by
  obtain ⟨⟨front, back, rfl, blank⟩, first, last⟩ := h
  obtain ⟨hfront, hback⟩ := List.forall_mem_append.1 blank
  have last' : ∀ c ∈ t.reverse.head?, isBlank c = false := by
    rwa [List.head?_reverse]
  have hback' : ∀ c ∈ back.reverse, isBlank c = true :=
    fun c hc => hback c (List.mem_reverse.1 hc)
  have front_gone : (front ++ t ++ back).dropWhile isBlank = (t ++ back).dropWhile isBlank := by
    rw [List.append_assoc, List.dropWhile_append_of_pos hfront]
  rw [trimBlank, front_gone]
  cases t with
  | nil =>
    rw [List.nil_append, List.dropWhile_eq_nil_iff.2 hback]
    rfl
  | cons c t =>
    rw [dropWhile_isBlank_of_head? (t := c :: t ++ back) first, List.reverse_append,
      List.dropWhile_append_of_pos hback', dropWhile_isBlank_of_head? last', List.reverse_reverse]

/-- Every text has blanks around what is left of it. -/
theorem trimmed_trimBlank (cs : List Char) : Trimmed cs (trimBlank cs) := by
  have head (l : List Char) : ∀ c ∈ (l.dropWhile isBlank).head?, isBlank c = false := by
    intro c hc
    have first := List.head?_dropWhile_not isBlank l
    rw [hc] at first
    exact first
  have blank (l : List Char) : ∀ c ∈ l.takeWhile isBlank, isBlank c = true :=
    fun c hc => List.mem_takeWhile_imp hc
  have cut (l : List Char) : l.takeWhile isBlank ++ l.dropWhile isBlank = l :=
    List.takeWhile_append_dropWhile
  have inner : cs.dropWhile isBlank =
      trimBlank cs ++ ((cs.dropWhile isBlank).reverse.takeWhile isBlank).reverse := by
    rw [trimBlank, ← List.reverse_append, cut, List.reverse_reverse]
  refine ⟨⟨cs.takeWhile isBlank, ((cs.dropWhile isBlank).reverse.takeWhile isBlank).reverse, ?_,
    List.forall_mem_append.2 ⟨blank cs, ?_⟩⟩, ?_, ?_⟩
  · rw [List.append_assoc, ← inner, cut]
  · exact fun c hc => blank _ c (List.mem_reverse.1 hc)
  · intro c hc
    refine head cs c ?_
    rw [inner, List.head?_append_of_ne_nil _ (by rintro empty; rw [empty] at hc; cases hc)]
    exact hc
  · intro c hc
    rw [trimBlank, List.getLast?_reverse] at hc
    exact head _ c hc

namespace Command

open Numeral (IsDigit number dropPlus Exceeds)

variable {digits : List Char} {radix : Nat} {v : UInt16} {e : NumberError} {c : Char}

/-! ## Marks in front of a numeral -/

/-- The marks of a number in base 16. -/
def marks : List (List Char) :=
  [['0', 'x'], ['$']]

/-- A number without blanks around it is a numeral in base 16 behind a mark, or one in base 10. -/
inductive Marked : List Char → Nat → List Char → Prop
  | hex {mark digits : List Char} : mark ∈ marks → Marked (mark ++ digits) 16 digits
  | decimal {digits : List Char} : (∀ mark ∈ marks, ¬ mark <+: digits) → Marked digits 10 digits

/-- A mark is split off, and the radix is the one that it stands for. -/
theorem Marked.splitRadix_eq (h : Marked t radix digits) : splitRadix t = (radix, digits) := by
  cases h with
  | @hex mark digits hmark =>
    simp only [marks, List.mem_cons, List.not_mem_nil, or_false] at hmark
    rcases hmark with rfl | rfl <;> rfl
  | decimal unmarked =>
    unfold splitRadix
    split
    · exact absurd ⟨_, rfl⟩ (unmarked ['0', 'x'] (by decide))
    · exact absurd ⟨_, rfl⟩ (unmarked ['$'] (by decide))
    · rfl

/-- Every text is a numeral behind a mark or one without a mark. -/
theorem exists_marked (t : List Char) : ∃ radix digits, Marked t radix digits := by
  by_cases marked : ∃ mark ∈ marks, mark <+: t
  · obtain ⟨mark, hmark, digits, rfl⟩ := marked
    exact ⟨16, digits, .hex hmark⟩
  · exact ⟨10, t, .decimal fun mark hmark first => marked ⟨mark, hmark, first⟩⟩

/-- Both radixes have digits of their own: the largest is sixteen. -/
theorem Marked.radix_le (h : Marked t radix digits) : 0 < radix ∧ radix ≤ 16 := by
  cases h <;> decide

/-! ## Numbers -/

/-- The numeral of a text decides what it is read as; an error is about what is left of the text
without blanks. -/
theorem readNumber_eq (trimmed : Trimmed cs t) (marked : Marked t radix digits) :
    readNumber cs = match Numeral.read radix (UInt16.size - 1) digits with
      | .ok n => .ok (.ofNat n)
      | .error cause => .error ⟨String.ofList t, cause⟩ := by
  rw [readNumber, trimmed.trimBlank_eq]
  cases numeral : Numeral.read radix (UInt16.size - 1) digits <;>
    simp only [marked.splitRadix_eq, numeral]

/-- A number is read just in case behind its mark, and behind a plus sign, there are digits of its
radix alone that write a word. -/
theorem readNumber_eq_ok_iff (trimmed : Trimmed cs t) (marked : Marked t radix digits) :
    readNumber cs = .ok v ↔ dropPlus digits ≠ [] ∧ (∀ c ∈ dropPlus digits, IsDigit radix c) ∧
      number radix (dropPlus digits) = v.toNat := by
  have read (n : Nat) : Numeral.read radix (UInt16.size - 1) digits = .ok n ↔
      dropPlus digits ≠ [] ∧ (∀ c ∈ dropPlus digits, IsDigit radix c) ∧
        n = number radix (dropPlus digits) ∧ n ≤ UInt16.size - 1 :=
    Numeral.read_eq_ok_iff marked.radix_le.1 marked.radix_le.2
  rw [readNumber_eq trimmed marked]
  constructor
  · intro h
    cases numeral : Numeral.read radix (UInt16.size - 1) digits with
    | error cause =>
      rw [numeral] at h
      cases h
    | ok n =>
      rw [numeral] at h
      cases h
      obtain ⟨nonempty, all, rfl, within⟩ := (read n).1 numeral
      refine ⟨nonempty, all, (UInt16.toNat_ofNat_of_lt ?_).symm⟩
      exact Nat.lt_of_le_pred (by decide) within
  · rintro ⟨nonempty, all, value⟩
    have within : v.toNat ≤ UInt16.size - 1 := Nat.le_pred_of_lt v.toNat_lt
    rw [(read v.toNat).2 ⟨nonempty, all, value.symm, within⟩]
    exact congrArg Except.ok UInt16.ofNat_toNat

/-- A text that is refused is named in the error without the blanks around it, and the cause is that
of its numeral. -/
theorem readNumber_eq_error_iff (trimmed : Trimmed cs t) (marked : Marked t radix digits) :
    readNumber cs = .error e ↔ Numeral.read radix (UInt16.size - 1) digits = .error e.cause ∧
      e.text = String.ofList t := by
  rw [readNumber_eq trimmed marked]
  cases Numeral.read radix (UInt16.size - 1) digits with
  | ok n => simp
  | error cause =>
    simp only [Except.error.injEq]
    constructor
    · rintro rfl
      exact ⟨rfl, rfl⟩
    · rintro ⟨rfl, text⟩
      rw [← text]

/-- **No number has a dot in it.** -/
theorem dot_not_mem (h : readNumber cs = .ok v) : '.' ∉ cs := by
  obtain ⟨radix, digits, marked⟩ := exists_marked (trimBlank cs)
  have trimmed := trimmed_trimBlank cs
  obtain ⟨-, all, -⟩ := (readNumber_eq_ok_iff trimmed marked).1 h
  obtain ⟨⟨front, back, whole, blank⟩, -, -⟩ := trimmed
  have unblank : '.' ∉ front ++ back := by
    intro hdot
    cases blank '.' hdot
  have undigit : '.' ∉ digits := by
    intro hdot
    have digit : '.' ∈ dropPlus digits := by
      unfold dropPlus
      split
      · rcases List.mem_cons.1 hdot with plus | hdot
        · cases plus
        · exact hdot
      · exact hdot
    have decimal : '.'.toLower ∈ Image.hexDigits := List.mem_of_mem_take (all '.' digit)
    revert decimal
    decide
  have unmarked : '.' ∉ trimBlank cs := by
    generalize trimBlank cs = t at marked
    cases marked with
    | @hex mark digits hmark =>
      have bare : ∀ mark ∈ marks, '.' ∉ mark := by decide
      rw [List.mem_append, not_or]
      exact ⟨bare mark hmark, undigit⟩
    | decimal => exact undigit
  rw [whole, List.mem_append, List.mem_append]
  rw [List.mem_append] at unblank
  tauto

/-! ## Addresses -/

/-- A digit is no blank. -/
theorem isBlank_of_isDigit (h : IsDigit 16 c) : isBlank c = false := by
  have ranges := Image.toNat_of_digit? ((Numeral.digit?_eq_some_iff (by decide)).2 ⟨h, rfl⟩)
  rw [← Char.ofNat_toNat c]
  generalize c.toNat = code at ranges ⊢
  rcases ranges with ⟨first, last⟩ | ⟨first, last⟩ | ⟨first, last⟩ <;> interval_cases code <;> rfl

/-- An address is read back from its text, with any blanks around it. -/
theorem readNumber_text (a : Address) {front back : List Char}
    (blank : ∀ c ∈ front ++ back, isBlank c = true) :
    readNumber (front ++ a.text.toList ++ back) = .ok a.value := by
  obtain ⟨all, value⟩ := Hex.number_upper 2 a.value.toNat
  have text : a.text.toList = ['$'] ++ (Hex.upper 2 a.value.toNat).toList := String.toList_append
  have unblank : ∀ c ∈ a.text.toList, isBlank c = false := by
    rw [text, List.forall_mem_append, List.forall_mem_singleton]
    exact ⟨by decide, fun c hc => isBlank_of_isDigit (all c hc)⟩
  have trimmed : Trimmed (front ++ a.text.toList ++ back) a.text.toList :=
    ⟨⟨front, back, rfl, blank⟩, fun c hc => unblank c (List.mem_of_head? hc),
      fun c hc => unblank c (List.mem_of_getLast? hc)⟩
  have written : Hex.Writes Hex.capitals 2 a.value.toNat (Hex.upper 2 a.value.toNat).toList :=
    Hex.writes_upper (by decide) _
  have unsigned := Numeral.dropPlus_of_isDigit all
  rw [text] at trimmed ⊢
  rw [readNumber_eq_ok_iff trimmed (.hex (by decide)), unsigned]
  exact ⟨written.ne_nil (by decide), all, value⟩

/-- **The syntax of numbers.** Every text is taken apart into blanks, a mark and a numeral. It is
read as an address just in case the numeral is, behind at most one plus sign, a list of digits that
is not empty, and the address is their number. Otherwise the error names the text without the
blanks; its cause is that the numeral is empty, or that a leading run of its digits has no address
for its number, or a character that is no digit in every other case. The text of an address is read
as the address, with any blanks around it. -/
theorem number_law :
    (∀ s : List Char, ∃ t radix digits, Trimmed s t ∧ Marked t radix digits) ∧
    (∀ (s t : List Char) (radix : Nat) (digits : List Char),
      Trimmed s t → Marked t radix digits →
      (∀ v : UInt16, readNumber s = .ok v ↔ dropPlus digits ≠ [] ∧
        (∀ c ∈ dropPlus digits, IsDigit radix c) ∧ number radix (dropPlus digits) = v.toNat) ∧
      ∀ e : NumberError, readNumber s = .error e →
        e.message = "invalid number '" ++ String.ofList t ++ "': " ++ e.cause.message ∧
        (e.cause.message = "cannot parse integer from empty string" ↔ digits = []) ∧
        (e.cause.message = "number too large to fit in target type" ↔
          Exceeds radix 65535 (dropPlus digits)) ∧
        (e.cause.message = "invalid digit found in string" ↔
          digits ≠ [] ∧ ¬ Exceeds radix 65535 (dropPlus digits))) ∧
    ∀ (a : Address) (front back : List Char), (∀ c ∈ front ++ back, isBlank c = true) →
      readNumber (front ++ a.text.toList ++ back) = .ok a.value := by
  refine ⟨fun s => ?_, fun s t radix digits trimmed marked =>
    ⟨fun v => readNumber_eq_ok_iff trimmed marked, fun e h => ?_⟩,
    fun a front back blank => readNumber_text a blank⟩
  · obtain ⟨radix, digits, marked⟩ := exists_marked (trimBlank s)
    exact ⟨_, radix, digits, trimmed_trimBlank s, marked⟩
  · obtain ⟨read, text⟩ := (readNumber_eq_error_iff trimmed marked).1 h
    have limit : UInt16.size - 1 = 65535 := rfl
    have empty : e.cause = .empty ↔ digits = [] := by
      rw [← Numeral.read_eq_empty_iff, read, Except.error.injEq]
    have large : e.cause = .tooLarge ↔ Exceeds radix 65535 (dropPlus digits) := by
      rw [← limit, ← Numeral.read_eq_tooLarge_iff marked.radix_le.2, read, Except.error.injEq]
    have named : e.message = "invalid number '" ++ String.ofList t ++ "': " ++ e.cause.message :=
      congrArg (fun text => "invalid number '" ++ text ++ "': " ++ e.cause.message) text
    refine ⟨named, ?_⟩
    rw [ne_eq, ← empty, ← large]
    cases e.cause <;> simp [NumeralError.message]

/-- A number whose leading digits are too large, with a character behind them that is no digit, and
an address between blanks. -/
theorem number_law_overflowing :
    let t := ['0', 'x', '+', '1', '0', '0', '0', '0', 'G']
    let digits := ['+', '1', '0', '0', '0', '0', 'G']
    (Trimmed (' ' :: t) t ∧ Marked t 16 digits ∧ ∃ e, readNumber (' ' :: t) = .error e ∧
      e.cause.message = "number too large to fit in target type") ∧
    (∀ c ∈ [' ', '\t'], isBlank c = true) ∧
      readNumber ([' '] ++ (Address.mk 0x9F).text.toList ++ ['\t']) = .ok 0x9F := by
  intro t digits
  have trimmed : Trimmed (' ' :: t) t :=
    ⟨⟨[' '], [], rfl, by simp [isBlank]⟩, by rintro c ⟨⟩; rfl, by rintro c ⟨⟩; rfl⟩
  have mark : ['0', 'x'] ∈ marks := by decide
  have marked : Marked t 16 digits := .hex mark
  have exceeds : Exceeds 16 65535 (dropPlus digits) :=
    ⟨['1', '0', '0', '0', '0'], ⟨['G'], rfl⟩, by simp [IsDigit, Image.hexDigits], by decide⟩
  have blank : ∀ c ∈ [' ', '\t'], isBlank c = true := by simp [isBlank]
  obtain ⟨-, reads, addresses⟩ := number_law
  obtain ⟨ok, error⟩ := reads _ _ _ _ trimmed marked
  refine ⟨⟨trimmed, marked, ?_⟩, blank, addresses ⟨0x9F⟩ [' '] ['\t'] blank⟩
  cases read : readNumber (' ' :: t) with
  | ok v =>
    obtain ⟨-, all, -⟩ := (ok v).1 read
    exact absurd (all 'G' (by decide)) (by decide)
  | error e => exact ⟨e, rfl, (error e read).2.2.1.2 exceeds⟩

end Command
end Accumulator
