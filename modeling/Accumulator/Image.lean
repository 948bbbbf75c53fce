import Accumulator.Text.Blank
import Accumulator.Text.Numeral

/-!
# Program images as text

An image is a table of hexadecimal words. A semicolon or a number sign starts a comment that runs to
the end of the line; blanks and commas separate the words. Only a line feed ends a line. A word is
one to four hexadecimal digits behind at most one `0x` or `0X`. The first token that is no word is
reported with the number of its line.
-/

namespace Accumulator

/-- Why a text is not an image. -/
inductive ImageError where
  /-- The token is no word; lines count from 1. -/
  | invalidWord (line : Nat) (token : String)
  /-- The file cannot be read as text. -/
  | unreadable
deriving DecidableEq, Repr

/-- The error in words. -/
def ImageError.message : ImageError → String
  | .invalidWord line token =>
    "line " ++ toString line ++ ": invalid image word '" ++ token ++ "'"
  | .unreadable => "failed to read image"

namespace Image

/-- The characters that start a comment. -/
def isCommentMark (c : Char) : Bool :=
  c == ';' || c == '#'

/-- The characters between two words of a line. -/
def isSeparator (c : Char) : Bool :=
  isBlank c || c == ','

/-- A token without its radix mark. -/
def stripMark : List Char → List Char
  | '0' :: 'x' :: rest => rest
  | '0' :: 'X' :: rest => rest
  | cs => cs

/-- Is the character a digit in base 16? -/
def isHexDigit (c : Char) : Bool :=
  (Numeral.digit? 16 c).isSome

/-- The word that a token denotes. Its digits are checked before they are read as a numeral, which
would take a sign as well. -/
def word? (token : List Char) : Option UInt16 :=
  let digits := stripMark token
  if digits.isEmpty || 4 < digits.length || !digits.all isHexDigit then none
  else match Numeral.read 16 (UInt16.size - 1) digits with
  | .ok n => some (.ofNat n)
  | .error _ => none

/-- The tokens of one line. -/
def tokens (line : List Char) : List (List Char) :=
  ((line.takeWhile (!isCommentMark ·)).splitOnP isSeparator).filter (!·.isEmpty)

/-- All tokens of a text, each with the number of its line. -/
def numberedTokens (text : List Char) : List (Nat × List Char) :=
  ((text.splitOn '\n').zipIdx 1).flatMap fun (line, n) => (tokens line).map (n, ·)

/-- The words of an image text. -/
def parse (text : String) : Except ImageError (List UInt16) :=
  (numberedTokens text.toList).mapM fun (line, token) =>
    match word? token with
    | some word => .ok word
    | none => .error (.invalidWord line (String.ofList token))

/-- The words of an image file, given its contents if it can be read. -/
def ofFile (contents : Option ByteArray) : Except ImageError (List UInt16) :=
  match contents.bind String.fromUTF8? with
  | some text => parse text
  | none => .error .unreadable

end Image
end Accumulator
