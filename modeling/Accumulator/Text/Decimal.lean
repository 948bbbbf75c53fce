/-!
# Decimal numerals

When a text is written as a decimal number: a sign or none, and then digits with at most one point
among or beside them and an exponent or none, or else the name of an infinity or of the value that
is no number.
-/

namespace Accumulator.Decimal

/-- A text without the sign it may start with. -/
def dropSign : List Char → List Char
  | '+' :: cs | '-' :: cs => cs
  | cs => cs

/-- Is the text empty or an exponent? -/
def isExponent : List Char → Bool
  | [] => true
  | 'e' :: cs | 'E' :: cs => !(dropSign cs).isEmpty && (dropSign cs).all Char.isDigit
  | _ => false

/-- What stands behind the fraction, and whether the fraction has a digit. -/
def splitFraction : List Char → Bool × List Char
  | '.' :: cs => (!(cs.takeWhile Char.isDigit).isEmpty, cs.dropWhile Char.isDigit)
  | cs => (false, cs)

/-- Is the text a number without a sign? -/
def isUnsigned (cs : List Char) : Bool :=
  let (hasFraction, rest) := splitFraction (cs.dropWhile Char.isDigit)
  (!(cs.takeWhile Char.isDigit).isEmpty || hasFraction) && isExponent rest

/-- The names of the values that no digits denote. -/
def names : List String :=
  ["inf", "infinity", "nan"]

/-- Is the text a decimal numeral? Letters count in either case. -/
def isNumeral (cs : List Char) : Bool :=
  isUnsigned (dropSign cs) ||
    names.any fun name => (dropSign cs).map Char.toLower == name.toList

end Accumulator.Decimal
