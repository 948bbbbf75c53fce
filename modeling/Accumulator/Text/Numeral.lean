/-!
# Unsigned numerals

Reading a number written in a radix up to 16: a non-empty run of digits, letters in either case,
after at most one `+`. The value has a limit, and the digits are read from the left, so of a value
over the limit and a character that is no digit the one that comes first is the cause reported.
-/

namespace Accumulator

/-- Why a text is not a numeral. -/
inductive NumeralError where
  /-- There is nothing to read. -/
  | empty
  /-- A character is not a digit of the radix, or a sign stands alone. -/
  | invalidDigit
  /-- The digits read so far already exceed the limit. -/
  | tooLarge
deriving DecidableEq, Repr

namespace NumeralError

/-- The cause in words. -/
def message : NumeralError → String
  | .empty => "cannot parse integer from empty string"
  | .invalidDigit => "invalid digit found in string"
  | .tooLarge => "number too large to fit in target type"

end NumeralError

namespace Numeral

/-- The value of an ASCII letter or decimal digit as a digit, if it is below `radix`. -/
def digit? (radix : Nat) (c : Char) : Option Nat :=
  let value :=
    if '0' ≤ c ∧ c ≤ '9' then c.toNat - '0'.toNat
    else if 'a' ≤ c ∧ c ≤ 'z' then c.toNat - 'a'.toNat + 10
    else if 'A' ≤ c ∧ c ≤ 'Z' then c.toNat - 'A'.toNat + 10
    else radix
  if value < radix then some value else none

/-- Reads digits behind a number whose value so far is `value`. -/
def readDigits (radix limit value : Nat) : List Char → Except NumeralError Nat
  | [] => .ok value
  | c :: rest =>
    match digit? radix c with
    | none => .error .invalidDigit
    | some d =>
      if value * radix + d ≤ limit then readDigits radix limit (value * radix + d) rest
      else .error .tooLarge

/-- Reads a whole text as a numeral of at most `limit`. -/
def read (radix limit : Nat) : List Char → Except NumeralError Nat
  | [] => .error .empty
  | ['+'] => .error .invalidDigit
  | '+' :: rest => readDigits radix limit 0 rest
  | cs => readDigits radix limit 0 cs

end Numeral
end Accumulator
