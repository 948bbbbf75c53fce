import Mathlib.Data.List.Basic
import Accumulator.Proofs.Digits

/-!
# What a numeral denotes

A numeral is read from the left, digit by digit, and given up at the first character that is no
digit and at the first digit that takes the value over the limit. `Numeral.IsDigit` is the class of
digits of a radix and `Numeral.number` the value of a whole list of them, the last counting ones.
The reader answers with that value just in case all is digits and the value is within the limit
(`read_eq_ok_iff`). Since a value only grows with further digits, it is the leading run of digits
that decides whether a numeral is too large (`read_eq_tooLarge_iff`), whatever stands behind it.
-/

namespace Accumulator.Numeral

/-- The character is a digit of the radix, a letter in either case. -/
def IsDigit (radix : Nat) (c : Char) : Prop :=
  c.toLower ∈ Image.hexDigits.take radix

instance (radix : Nat) (c : Char) : Decidable (IsDigit radix c) :=
  inferInstanceAs (Decidable (c.toLower ∈ Image.hexDigits.take radix))

/-- The value of a digit. -/
def digitValue (c : Char) : Nat :=
  Image.hexDigits.idxOf c.toLower

/-- The number that digits denote, the last one counting ones. -/
def number (radix : Nat) (digits : List Char) : Nat :=
  Nat.ofDigits radix (digits.reverse.map digitValue)

/-- A numeral without the plus sign that it may start with. -/
def dropPlus : List Char → List Char
  | '+' :: cs => cs
  | cs => cs

/-- The text starts with digits whose number is over the limit. -/
def Exceeds (radix limit : Nat) (cs : List Char) : Prop :=
  ∃ run, run <+: cs ∧ (∀ c ∈ run, IsDigit radix c) ∧ limit < number radix run

variable {radix limit n d : Nat} {c : Char} {cs before : List Char}

/-! ## Digits -/

/-- In a smaller radix there are fewer digits, of the same values. -/
theorem digit?_eq_some_iff_lt (small : radix ≤ 16) :
    digit? radix c = some d ↔ digit? 16 c = some d ∧ d < radix := by
  simp only [digit?, Option.ite_none_right_eq_some]
  split
  · grind
  split
  · grind
  split
  · grind
  · simp

/-- A character is read as a digit just in case it is one of the radix, and as its value. -/
theorem digit?_eq_some_iff (small : radix ≤ 16) :
    digit? radix c = some d ↔ IsDigit radix c ∧ digitValue c = d := by
  rw [digit?_eq_some_iff_lt small, Image.digit?_eq_some_iff, IsDigit, digitValue]
  constructor
  · rintro ⟨⟨digit, rfl⟩, below⟩
    exact ⟨(List.mem_take_iff_idxOf_lt digit).2 below, rfl⟩
  · rintro ⟨digit, rfl⟩
    have mem : c.toLower ∈ Image.hexDigits := List.mem_of_mem_take digit
    exact ⟨⟨mem, rfl⟩, (List.mem_take_iff_idxOf_lt mem).1 digit⟩

/-- No other character is read as a digit. -/
theorem digit?_eq_none_iff (small : radix ≤ 16) : digit? radix c = none ↔ ¬ IsDigit radix c := by
  rw [Option.eq_none_iff_forall_ne_some]
  simp only [ne_eq, digit?_eq_some_iff small, not_and]
  exact ⟨fun h digit => h _ digit rfl, fun h _ digit => absurd digit h⟩

/-- The last digit of a numeral counts once, and those before it as often as the radix says. -/
theorem number_concat (radix : Nat) (cs : List Char) (c : Char) :
    number radix (cs ++ [c]) = number radix cs * radix + digitValue c := by
  rw [number, List.reverse_append, List.map_append]
  exact (Nat.add_comm _ _).trans (congrArg (· + _) (Nat.mul_comm _ _))

/-- A number grows with further digits. -/
theorem number_le_append (pos : 0 < radix) (before cs : List Char) :
    number radix before ≤ number radix (before ++ cs) := by
  induction cs using List.reverseRecOn with
  | nil => rw [List.append_nil]
  | append_singleton cs c ih =>
    rw [← List.append_assoc, number_concat]
    calc number radix before ≤ number radix (before ++ cs) := ih
      _ ≤ number radix (before ++ cs) * radix := Nat.le_mul_of_pos_right _ pos
      _ ≤ number radix (before ++ cs) * radix + digitValue c := Nat.le_add_right _ _

/-! ## Digits read one by one -/

/-- One more digit is read behind those that were. -/
theorem readDigits_cons_of_isDigit (small : radix ≤ 16) (h : IsDigit radix c)
    (before cs : List Char) : readDigits radix limit (number radix before) (c :: cs) =
      if number radix (before ++ [c]) ≤ limit then
        readDigits radix limit (number radix (before ++ [c])) cs
      else .error .tooLarge := by
  rw [readDigits, (digit?_eq_some_iff small).2 ⟨h, rfl⟩, number_concat]

/-- The first character that is no digit ends the reader, whatever stands behind it. -/
theorem readDigits_cons_of_not_isDigit (small : radix ≤ 16) (h : ¬ IsDigit radix c)
    (value : Nat) (cs : List Char) :
    readDigits radix limit value (c :: cs) = .error .invalidDigit := by
  rw [readDigits, (digit?_eq_none_iff small).2 h]

/-- Digits are read as the number that they denote behind those that were read, if it is within the
limit. -/
theorem readDigits_eq_ok_iff (pos : 0 < radix) (small : radix ≤ 16)
    (within : number radix before ≤ limit) :
    readDigits radix limit (number radix before) cs = .ok n ↔
      (∀ c ∈ cs, IsDigit radix c) ∧ n = number radix (before ++ cs) ∧ n ≤ limit := by
  induction cs generalizing before with
  | nil =>
    rw [readDigits, List.append_nil, Except.ok.injEq]
    constructor
    · rintro rfl
      exact ⟨nofun, rfl, within⟩
    · rintro ⟨-, rfl, -⟩
      rfl
  | cons c cs ih =>
    rw [List.forall_mem_cons]
    by_cases digit : IsDigit radix c
    · have whole : before ++ c :: cs = before ++ [c] ++ cs := by simp
      rw [readDigits_cons_of_isDigit small digit, whole]
      split
      case isTrue within => rw [ih within, and_iff_right digit]
      case isFalse exceeds =>
        have grows := number_le_append pos (before ++ [c]) cs
        refine iff_of_false nofun ?_
        rintro ⟨-, rfl, within⟩
        exact exceeds (grows.trans within)
    · rw [readDigits_cons_of_not_isDigit small digit]
      exact iff_of_false nofun fun h => digit h.1.1

/-- Digits are too large just in case some that come first are, behind those that were read. -/
theorem readDigits_eq_tooLarge_iff (small : radix ≤ 16) (within : number radix before ≤ limit) :
    readDigits radix limit (number radix before) cs = .error .tooLarge ↔
      ∃ run, run <+: cs ∧ (∀ c ∈ run, IsDigit radix c) ∧ limit < number radix (before ++ run) := by
  induction cs generalizing before with
  | nil =>
    refine iff_of_false nofun ?_
    rintro ⟨run, first, -, exceeds⟩
    rw [List.prefix_nil.1 first, List.append_nil] at exceeds
    omega
  | cons c cs ih =>
    -- what was read is within the limit, so a run that exceeds it goes on
    have start (run : List Char) (first : run <+: c :: cs)
        (exceeds : limit < number radix (before ++ run)) :
        ∃ run', run = c :: run' ∧ run' <+: cs := by
      cases run with
      | nil =>
        rw [List.append_nil] at exceeds
        omega
      | cons c' run' =>
        obtain ⟨rfl, first'⟩ := List.cons_prefix_cons.1 first
        exact ⟨run', rfl, first'⟩
    by_cases digit : IsDigit radix c
    · rw [readDigits_cons_of_isDigit small digit]
      split
      case isTrue within =>
        rw [ih within]
        constructor
        · rintro ⟨run, first, digits, exceeds⟩
          refine ⟨c :: run, List.cons_prefix_cons.2 ⟨rfl, first⟩,
            List.forall_mem_cons.2 ⟨digit, digits⟩, ?_⟩
          rwa [List.append_cons]
        · rintro ⟨run, first, digits, exceeds⟩
          obtain ⟨run, rfl, first'⟩ := start run first exceeds
          rw [List.append_cons] at exceeds
          exact ⟨run, first', (List.forall_mem_cons.1 digits).2, exceeds⟩
      case isFalse exceeds =>
        refine iff_of_true rfl ⟨[c], ⟨cs, rfl⟩, ?_, Nat.not_le.1 exceeds⟩
        rwa [List.forall_mem_singleton]
    · rw [readDigits_cons_of_not_isDigit small digit]
      refine iff_of_false nofun ?_
      rintro ⟨run, first, digits, exceeds⟩
      obtain ⟨run, rfl, -⟩ := start run first exceeds
      exact digit (List.forall_mem_cons.1 digits).1

/-- The reader of digits does not complain of a numeral without digits; that is for its caller to
do. -/
theorem readDigits_ne_empty (radix limit value : Nat) (cs : List Char) :
    readDigits radix limit value cs ≠ .error .empty := by
  induction cs generalizing value with
  | nil => nofun
  | cons c cs ih =>
    rw [readDigits]
    split
    · nofun
    · split
      · exact ih _
      · nofun

/-! ## Whole numerals -/

/-- Digits have no plus sign in front. -/
theorem dropPlus_of_isDigit (h : ∀ c ∈ cs, IsDigit 16 c) : dropPlus cs = cs := by
  unfold dropPlus
  split
  · exact absurd (h '+' List.mem_cons_self) (by decide)
  · rfl

/-- A numeral is empty, a lone sign, or digits behind a sign or none. -/
theorem read_eq (radix limit : Nat) (cs : List Char) : read radix limit cs =
    if cs = [] then .error .empty
    else if dropPlus cs = [] then .error .invalidDigit
    else readDigits radix limit (number radix []) (dropPlus cs) := by
  unfold read
  split
  · rfl
  · rfl
  case h_3 rest other =>
    have nonempty : dropPlus ('+' :: rest) ≠ [] := other
    rw [if_neg (List.cons_ne_nil _ _), if_neg nonempty]
    rfl
  case h_4 nonempty _ unsigned =>
    have whole : dropPlus cs = cs := by
      unfold dropPlus
      split
      · exact absurd rfl (unsigned _)
      · rfl
    rw [if_neg nonempty, whole, if_neg nonempty]
    rfl

/-- **A numeral is read as the number of its digits**, if all are digits and the number is within
the limit. -/
theorem read_eq_ok_iff (pos : 0 < radix) (small : radix ≤ 16) : read radix limit cs = .ok n ↔
    dropPlus cs ≠ [] ∧ (∀ c ∈ dropPlus cs, IsDigit radix c) ∧ n = number radix (dropPlus cs) ∧
      n ≤ limit := by
  have zero : number radix [] ≤ limit := Nat.zero_le limit
  rw [read_eq]
  by_cases empty : cs = []
  · subst empty
    exact iff_of_false nofun fun h => h.1 rfl
  rw [if_neg empty]
  by_cases sign : dropPlus cs = []
  · rw [if_pos sign]
    exact iff_of_false nofun fun h => h.1 sign
  · rw [if_neg sign, readDigits_eq_ok_iff pos small zero, List.nil_append, and_iff_right sign]

/-- A numeral is called empty just in case it has no characters at all, not even a sign. -/
theorem read_eq_empty_iff : read radix limit cs = .error .empty ↔ cs = [] := by
  rw [read_eq]
  by_cases empty : cs = []
  · rw [if_pos empty]
    exact iff_of_true rfl empty
  · rw [if_neg empty]
    refine iff_of_false ?_ empty
    split
    · nofun
    · exact readDigits_ne_empty _ _ _ _

/-- **A numeral is too large just in case its leading digits are**, whatever stands behind them. -/
theorem read_eq_tooLarge_iff (small : radix ≤ 16) :
    read radix limit cs = .error .tooLarge ↔ Exceeds radix limit (dropPlus cs) := by
  have zero : number radix [] ≤ limit := Nat.zero_le limit
  have none : ¬ Exceeds radix limit [] := by
    rintro ⟨run, first, -, exceeds⟩
    rw [List.prefix_nil.1 first] at exceeds
    exact Nat.not_lt.2 zero exceeds
  rw [read_eq]
  by_cases empty : cs = []
  · subst empty
    exact iff_of_false nofun none
  rw [if_neg empty]
  by_cases sign : dropPlus cs = []
  · rw [if_pos sign, sign]
    exact iff_of_false nofun none
  · rw [if_neg sign, readDigits_eq_tooLarge_iff small zero]
    rfl

end Accumulator.Numeral
