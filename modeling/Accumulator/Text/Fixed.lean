/-!
# Numbers with two decimal places

A non-negative binary64 number is `m · 2 ^ e` with `m` and `e` integers, so its value in
hundredths is a fraction of naturals and is rounded exactly: to the nearest
(`roundHalfEven_near`), a tie to the even neighbour (`roundHalfEven_tie`). No decimal
approximation takes part.
-/

namespace Accumulator.Fixed

/-- `num / den` rounded to the nearest natural, a tie to the even one. -/
def roundHalfEven (num den : Nat) : Nat :=
  let quotient := num / den
  let rest := num % den
  if 2 * rest < den then quotient
  else if den < 2 * rest then quotient + 1
  else quotient + quotient % 2

/-- The significand of a binary64 number from its bits: the fraction field, with the leading one
that a normal number has. -/
def significand (bits : Nat) : Nat :=
  let fraction := bits % (1 <<< 52)
  if (bits >>> 52) % 2048 = 0 then fraction else (1 <<< 52) + fraction

/-- The exponent of the last place of the significand, plus 1074. -/
def scale (bits : Nat) : Nat :=
  (bits >>> 52) % 2048 - 1

/-- The non-negative finite number with the given bits, in hundredths. -/
def hundredths (bits : Nat) : Nat :=
  roundHalfEven ((significand bits * 100) <<< scale bits) (1 <<< 1074)

/-- `n` hundredths in decimal: the whole part, a point and two places. -/
def ofHundredths (n : Nat) : String :=
  toString (n / 100) ++ "." ++ toString (n % 100 / 10) ++ toString (n % 10)

/-- A non-negative finite number with two decimal places. -/
def text (x : Float) : String :=
  ofHundredths (hundredths x.toBits.toNat)

end Accumulator.Fixed
