import Mathlib.Data.Bool.AllAny
import Mathlib.Data.List.Induction
import Mathlib.Data.Nat.Digits.Defs
import Mathlib.Tactic.IntervalCases
import Accumulator.Text.Numeral
import Accumulator.Text.Hex

/-!
# Digits in base 16

A digit is a decimal digit or one of six letters in either case (`Image.digit?_eq_some_iff`). A list
of digits denotes a number, the last digit counting ones (`Image.hexNumber`); `Image.value?` is the
same as a reader (`Image.value?_eq_some_iff`). The digits that a number is printed with denote it,
with zeros in front or not and in either case (`Image.value?_digits`).
-/

namespace Accumulator

namespace Numeral

/-- The case of a letter makes no difference to a digit. -/
theorem digit?_toLower (c : Char) : digit? 16 c.toLower = digit? 16 c := by
  by_cases capital : c.val ≥ 'A'.val ∧ c.val ≤ 'Z'.val
  · have first : 65 ≤ c.toNat := capital.1
    have last : c.toNat ≤ 90 := capital.2
    rw [← Char.ofNat_toNat c]
    generalize c.toNat = code at first last ⊢
    interval_cases code <;> rfl
  · exact congrArg (digit? 16) (dif_neg capital)

theorem digit?_toUpper (c : Char) : digit? 16 c.toUpper = digit? 16 c := by
  by_cases small : c.val ≥ 'a'.val ∧ c.val ≤ 'z'.val
  · have first : 97 ≤ c.toNat := small.1
    have last : c.toNat ≤ 122 := small.2
    rw [← Char.ofNat_toNat c]
    generalize c.toNat = code at first last ⊢
    interval_cases code <;> rfl
  · exact congrArg (digit? 16) (dif_neg small)

/-- A digit that is written is read back. -/
theorem digit?_digitChar {d : Nat} (h : d < 16) : digit? 16 d.digitChar = some d := by
  interval_cases d <;> rfl

end Numeral

namespace Image

variable {cs : List Char} {n : Nat}

/-! ## The digits of a number -/

/-- The number that digits in base 16 denote, if all of them are digits. -/
def value? (digits : List Char) : Option Nat :=
  (digits.mapM (Numeral.digit? 16)).map (·.foldl (fun n d => n * 16 + d) 0)

variable {cs token : List Char} {n : Nat} {w : UInt16}

/-- The last digit of a text counts once, and those before it sixteen times as much. -/
theorem value?_concat (cs : List Char) (c : Char) :
    value? (cs ++ [c]) = (value? cs).bind fun n => (Numeral.digit? 16 c).map (n * 16 + ·) := by
  rw [value?, value?, List.mapM_append, List.mapM_cons, List.mapM_nil]
  cases cs.mapM (Numeral.digit? 16) with
  | none => rfl
  | some ds =>
    cases Numeral.digit? 16 c with
    | none => rfl
    | some d => simp

/-- A zero in front counts for nothing. -/
theorem value?_zero_cons (cs : List Char) : value? ('0' :: cs) = value? cs := by
  have zero : Numeral.digit? 16 '0' = some 0 := rfl
  rw [value?, value?, List.mapM_cons, zero]
  cases cs.mapM (Numeral.digit? 16) <;> rfl

/-- The case of the letters does not matter to a value. -/
theorem value?_map_toLower (cs : List Char) : value? (cs.map Char.toLower) = value? cs := by
  rw [value?, value?, List.mapM_map]
  congr 2
  funext c
  exact Numeral.digit?_toLower c

theorem value?_map_toUpper (cs : List Char) : value? (cs.map Char.toUpper) = value? cs := by
  rw [value?, value?, List.mapM_map]
  congr 2
  funext c
  exact Numeral.digit?_toUpper c

/-- The digits that a number is written in give the number back. -/
theorem value?_toDigits (n : Nat) : value? (Nat.toDigits 16 n) = some n := by
  induction n using Nat.strongRecOn with
  | ind n ih =>
    by_cases small : n < 16
    · rw [Nat.toDigits_of_lt_base small, ← List.nil_append [n.digitChar], value?_concat,
        Numeral.digit?_digitChar small]
      simp [value?]
    · have quotient : n / 16 < n := Nat.div_lt_self (by omega) (by decide)
      have remainder : n % 16 < 16 := Nat.mod_lt n (by decide)
      rw [Nat.toDigits_of_base_le (by decide) (Nat.not_lt.1 small), value?_concat, ih _ quotient,
        Numeral.digit?_digitChar remainder]
      exact congrArg some (Nat.div_add_mod' n 16)

/-- Padded digits denote the number. -/
theorem value?_digits (width n : Nat) : value? (Hex.digits width n) = some n := by
  rw [Hex.digits, List.leftpad]
  induction width - (Nat.toDigits 16 n).length with
  | zero => exact value?_toDigits n
  | succ k ih => rw [List.replicate_succ, List.cons_append, value?_zero_cons, ih]

/-! ## The number of digits -/

/-- The digits in base 16, in order of their values; letters count in either case. -/
def hexDigits : List Char :=
  ['0', '1', '2', '3', '4', '5', '6', '7', '8', '9', 'a', 'b', 'c', 'd', 'e', 'f']

/-- The number that a list of digits denotes, the last digit counting ones. -/
def hexNumber (digits : List Char) : Nat :=
  Nat.ofDigits 16 (digits.reverse.map fun c => hexDigits.idxOf c.toLower)

/-- A digit lies in one of three ranges. -/
theorem toNat_of_digit? {c : Char} {d : Nat} (h : Numeral.digit? 16 c = some d) :
    (48 ≤ c.toNat ∧ c.toNat ≤ 57) ∨ (97 ≤ c.toNat ∧ c.toNat ≤ 102) ∨
      (65 ≤ c.toNat ∧ c.toNat ≤ 70) := by
  have small : '0'.toNat = 48 ∧ 'a'.toNat = 97 ∧ 'A'.toNat = 65 := by decide
  simp only [Numeral.digit?, Option.ite_none_right_eq_some] at h
  obtain ⟨lt, -⟩ := h
  split at lt
  case isTrue decimal => exact .inl decimal
  split at lt
  case isTrue letter =>
    have first : 97 ≤ c.toNat := letter.1
    exact .inr (.inl ⟨first, by omega⟩)
  split at lt
  case isTrue capital =>
    have first : 65 ≤ c.toNat := capital.1
    exact .inr (.inr ⟨first, by omega⟩)
  case isFalse => omega

/-- A digit of radix sixteen is one of the sixteen characters, in either case, and its value is its
place among them. -/
theorem digit?_eq_some_iff {c : Char} {d : Nat} : Numeral.digit? 16 c = some d ↔
    c.toLower ∈ hexDigits ∧ hexDigits.idxOf c.toLower = d := by
  constructor
  · intro h
    have ranges := toNat_of_digit? h
    rw [← Char.ofNat_toNat c] at h ⊢
    generalize c.toNat = code at h ranges ⊢
    rcases ranges with ⟨first, last⟩ | ⟨first, last⟩ | ⟨first, last⟩ <;>
      interval_cases code <;> cases h <;> exact ⟨by decide, rfl⟩
  · rintro ⟨digit, rfl⟩
    have all : ∀ c ∈ hexDigits, Numeral.digit? 16 c = some (hexDigits.idxOf c) :=
      List.all_iff_forall_prop.1 (by decide)
    rw [← Numeral.digit?_toLower, all _ digit]

/-- What all is digits denotes their number. -/
theorem value?_eq_some_iff : value? cs = some n ↔
    (∀ c ∈ cs, c.toLower ∈ hexDigits) ∧ hexNumber cs = n := by
  induction cs using List.reverseRecOn generalizing n with
  | nil => simp [value?, hexNumber]
  | append_singleton cs c ih =>
    have number : hexNumber (cs ++ [c]) = hexNumber cs * 16 + hexDigits.idxOf c.toLower := by
      rw [hexNumber, List.reverse_append, List.map_append]
      exact (Nat.add_comm _ _).trans (congrArg (· + _) (Nat.mul_comm _ _))
    rw [value?_concat, Option.bind_eq_some_iff, List.forall_mem_append, List.forall_mem_singleton,
      number]
    constructor
    · rintro ⟨front, hfront, last⟩
      obtain ⟨d, hd, rfl⟩ := Option.map_eq_some_iff.1 last
      obtain ⟨digits, rfl⟩ := ih.1 hfront
      obtain ⟨digit, rfl⟩ := digit?_eq_some_iff.1 hd
      exact ⟨⟨digits, digit⟩, rfl⟩
    · rintro ⟨⟨digits, digit⟩, rfl⟩
      refine ⟨hexNumber cs, ih.2 ⟨digits, rfl⟩, ?_⟩
      rw [digit?_eq_some_iff.2 ⟨digit, rfl⟩, Option.map_some]

/-- Digits denote a number below the power of their length. -/
theorem hexNumber_lt_pow (digits : ∀ c ∈ cs, c.toLower ∈ hexDigits) :
    hexNumber cs < 16 ^ cs.length := by
  have below : ∀ d ∈ cs.reverse.map (fun c => hexDigits.idxOf c.toLower), d < 16 := by
    intro d hd
    obtain ⟨c, hc, rfl⟩ := List.mem_map.1 hd
    exact List.idxOf_lt_length_of_mem (digits c (List.mem_reverse.1 hc))
  have lt := Nat.ofDigits_lt_base_pow_length (by decide) below
  rwa [List.length_map, List.length_reverse] at lt

/-- Four digits have room in a word. -/
theorem hexNumber_lt (digits : ∀ c ∈ cs, c.toLower ∈ hexDigits) (short : cs.length ≤ 4) :
    hexNumber cs < 2 ^ 16 :=
  (hexNumber_lt_pow digits).trans_le (Nat.pow_le_pow_right (by decide) short)

end Image
end Accumulator
