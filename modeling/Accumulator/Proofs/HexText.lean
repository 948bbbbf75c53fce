import Accumulator.Proofs.Numeral
import Accumulator.Text.Hex

/-!
# Numbers written in base 16

A number in hexadecimal text is told by the digits that it is written in, without saying how they
are printed: `Hex.Writes` says which letters the digits are taken from, which number they denote,
and that they are as few as the width allows. Numbers are printed in small letters and in capital
ones (`writes_lower`, `writes_upper`), and a word in four digits (`length_upper_word`).
-/

namespace Accumulator.Hex

/-- The digits in base 16, letters capital. -/
def capitals : List Char :=
  ['0', '1', '2', '3', '4', '5', '6', '7', '8', '9', 'A', 'B', 'C', 'D', 'E', 'F']

/-- The digits write a number in base 16 in letters from the list: at least so many of them as the
width says, and no zero in front if there are more. -/
structure Writes (letters : List Char) (width n : Nat) (digits : List Char) : Prop where
  among : ∀ c ∈ digits, c ∈ letters
  number : Numeral.number 16 digits = n
  width_le : width ≤ digits.length
  shortest : width < digits.length → digits.head? ≠ some '0'

variable {width n : Nat} {letters cs : List Char}

/-- There is a digit at least. -/
theorem Writes.ne_nil (h : Writes letters width n cs) (pos : 0 < width) : cs ≠ [] :=
  List.length_pos_iff.1 (Nat.lt_of_lt_of_le pos h.width_le)

/-! ## Small letters -/

/-- The digits of a number are small. -/
theorem mem_hexDigits_of_mem_toDigits (n : Nat) : ∀ c ∈ Nat.toDigits 16 n, c ∈ Image.hexDigits := by
  have digit : ∀ d < 16, d.digitChar ∈ Image.hexDigits := by decide
  induction n using Nat.strongRecOn with
  | ind n ih =>
    by_cases small : n < 16
    · rw [Nat.toDigits_of_lt_base small, List.forall_mem_singleton]
      exact digit n small
    · rw [Nat.toDigits_of_base_le (by decide) (Nat.not_lt.1 small), List.forall_mem_append,
        List.forall_mem_singleton]
      exact ⟨ih _ (Nat.div_lt_self (by omega) (by decide)), digit _ (Nat.mod_lt n (by decide))⟩

/-- Padded digits are small as well. -/
theorem mem_hexDigits_of_mem_digits {c : Char} (h : c ∈ digits width n) : c ∈ Image.hexDigits := by
  rw [digits, List.leftpad, List.mem_append] at h
  rcases h with padding | digit
  · rw [List.eq_of_mem_replicate padding]
    decide
  · exact mem_hexDigits_of_mem_toDigits n c digit

/-- Digits are padded up to the width, and longer numbers are written in full. -/
theorem length_digits (width n : Nat) :
    (digits width n).length = max width (Nat.toDigits 16 n).length := by
  rw [digits, List.length_leftpad]

/-- A number is written by its padded digits. -/
theorem writes_digits (pos : 0 < width) (n : Nat) :
    Writes Image.hexDigits width n (digits width n) := by
  obtain ⟨all, number⟩ := Image.value?_eq_some_iff.1 (Image.value?_digits width n)
  have length := length_digits width n
  refine ⟨fun c hc => mem_hexDigits_of_mem_digits hc, number, by omega, fun more zero => ?_⟩
  -- with a zero in front the number would have room in fewer digits
  generalize digits width n = written at all number length more zero
  cases written with
  | nil => cases zero
  | cons c rest =>
    cases zero
    have value : Image.value? ('0' :: rest) = some n := Image.value?_eq_some_iff.2 ⟨all, number⟩
    rw [Image.value?_zero_cons] at value
    obtain ⟨digits, rfl⟩ := Image.value?_eq_some_iff.1 value
    rw [List.length_cons] at length more
    have fewer := (Nat.length_toDigits_le_iff (k := rest.length) (by decide) (by omega)).2
      (Image.hexNumber_lt_pow digits)
    omega

/-- Capital digits, padded to any width, denote the number that they are written for. -/
theorem number_upper (width n : Nat) :
    (∀ c ∈ (upper width n).toList, Numeral.IsDigit 16 c) ∧
      Numeral.number 16 (upper width n).toList = n := by
  rw [upper, String.toList_ofList]
  exact Image.value?_eq_some_iff.1
    ((Image.value?_map_toUpper _).trans (Image.value?_digits width n))

/-- A number is written in capital letters. -/
theorem writes_upper (pos : 0 < width) (n : Nat) :
    Writes capitals width n (upper width n).toList := by
  obtain ⟨among, -, width_le, shortest⟩ := writes_digits pos n
  -- over the list: deciding a statement about any character may run through all characters
  have listed : Image.hexDigits.all (·.toUpper ∈ capitals) = true := by decide
  have capital : ∀ c ∈ Image.hexDigits, c.toUpper ∈ capitals := by
    simpa only [List.all_eq_true, decide_eq_true_eq] using listed
  have zeros : Image.hexDigits.all (fun c => c.toUpper = '0' → c = '0') = true := by decide
  have zero : ∀ c ∈ Image.hexDigits, c.toUpper = '0' → c = '0' := by
    simpa only [List.all_eq_true, decide_eq_true_eq] using zeros
  refine ⟨?_, (number_upper width n).2, ?_, ?_⟩ <;>
    rw [upper, String.toList_ofList]
  · rw [List.forall_mem_map]
    exact fun c hc => capital c (among c hc)
  · rwa [List.length_map]
  · rw [List.length_map, List.head?_map]
    intro more first
    obtain ⟨c, hc, upper⟩ := Option.map_eq_some_iff.1 first
    rw [zero c (among c (List.mem_of_head? hc)) upper] at hc
    exact shortest more hc

/-- A word is written in four digits. -/
theorem length_upper_word (w : UInt16) : (upper 4 w.toNat).toList.length = 4 := by
  have short : (Nat.toDigits 16 w.toNat).length ≤ 4 :=
    (Nat.length_toDigits_le_iff (by decide) (by decide)).2 w.toNat_lt
  rw [upper, String.toList_ofList, List.length_map, length_digits, Nat.max_eq_left short]

end Accumulator.Hex
