/-!
# Hexadecimal text

Words and addresses are shown in base 16. `Hex.digits` is the digit list, most significant first
and padded with zeros to a least width; `Hex.lower` and `Hex.upper` are its two letter cases. The
width is a minimum: a number with more digits keeps them all.
-/

namespace Accumulator.Hex

/-- The base-16 digits of `n` with small letters, at least `width` of them. -/
def digits (width n : Nat) : List Char :=
  (Nat.toDigits 16 n).leftpad width '0'

/-- `n` in base 16 with small letters, at least `width` digits. -/
def lower (width n : Nat) : String :=
  String.ofList (digits width n)

/-- `n` in base 16 with capital letters, at least `width` digits. -/
def upper (width n : Nat) : String :=
  String.ofList ((digits width n).map Char.toUpper)

end Accumulator.Hex
