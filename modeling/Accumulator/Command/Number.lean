import Accumulator.Text.Blank
import Accumulator.Text.Hex
import Accumulator.Text.Numeral

/-!
# Numbers and ranges on the command line

An address is decimal, or hexadecimal behind `0x` or a dollar sign; blanks around it do not count. A
range is two such numbers with two dots between them. The first two dots are the ones that count,
since no number has one.
-/

namespace Accumulator.Command

/-- Why a text is not a number: the text without the blanks around it, and the cause. -/
structure NumberError where
  text : String
  cause : NumeralError
deriving DecidableEq, Repr

/-- The error in words. -/
def NumberError.message (e : NumberError) : String :=
  "invalid number '" ++ e.text ++ "': " ++ e.cause.message

/-- The radix of a number and its digits. -/
def splitRadix : List Char → Nat × List Char
  | '0' :: 'x' :: digits => (16, digits)
  | '$' :: digits => (16, digits)
  | digits => (10, digits)

/-- Reads an address. -/
def readNumber (cs : List Char) : Except NumberError UInt16 :=
  let text := trimBlank cs
  let (radix, digits) := splitRadix text
  match Numeral.read radix (UInt16.size - 1) digits with
  | .ok n => .ok (.ofNat n)
  | .error cause => .error ⟨String.ofList text, cause⟩

/-- A range of words of memory, its end not included. -/
structure WordRange where
  start : UInt16
  stop : UInt16
deriving DecidableEq, Repr

/-- Why a text is not a range. -/
inductive RangeError where
  /-- There are no two dots in the text. -/
  | noDots (text : String)
  /-- An end of the range is not a number. -/
  | number (error : NumberError)
  /-- The start lies behind the end. -/
  | reversed (start stop : UInt16)
deriving DecidableEq, Repr

/-- The error in words. -/
def RangeError.message : RangeError → String
  | .noDots text => "expected START..END, got '" ++ text ++ "'"
  | .number error => error.message
  | .reversed start stop =>
    "range start 0x" ++ Hex.lower 1 start.toNat ++ " is after end 0x" ++ Hex.lower 1 stop.toNat

/-- The parts of a text in front of its first two dots and behind them. -/
def cutAtDots : List Char → Option (List Char × List Char)
  | [] => none
  | '.' :: '.' :: rest => some ([], rest)
  | c :: rest => (cutAtDots rest).map fun (front, back) => (c :: front, back)

/-- Reads a range. -/
def readRange (cs : List Char) : Except RangeError WordRange := do
  match cutAtDots cs with
  | none => throw (.noDots (String.ofList cs))
  | some (front, back) =>
    let start ← (readNumber front).mapError .number
    let stop ← (readNumber back).mapError .number
    if stop < start then throw (.reversed start stop)
    return ⟨start, stop⟩

end Accumulator.Command
