import Accumulator.Text.Blank
import Accumulator.Text.Numeral

/-!
# The smallest parts of a pattern

A pattern is read under `Modes`, which its groups can change. An atom is a part without parts:
a character, a class of characters named by a letter, or a condition on the place. Which atoms can
be used hangs on the modes, because the matcher has no tables of characters beyond ASCII: of
characters it knows neither the class nor the other case, and of bytes only those below 0x80.
-/

namespace Accumulator.Pattern

/-- The modes that decide what a part of a pattern means. -/
structure Modes where
  /-- Do letters stand for both of their cases? -/
  ignoresCase : Bool := false
  /-- Is the pattern about characters? Otherwise it is about bytes. -/
  isUnicode : Bool := true
  /-- Are blanks and comments in the pattern skipped? -/
  isVerbose : Bool := false
deriving DecidableEq, Repr

namespace Modes

/-- A text without the blanks and comments it starts with. A comment goes from a number sign to the
end of the line. -/
def skipRemarks (inComment : Bool) : List Char → List Char
  | [] => []
  | c :: cs =>
    if inComment then skipRemarks (c != '\n') cs
    else if c == '#' then skipRemarks true cs
    else if isBlank c then skipRemarks false cs
    else c :: cs

/-- A text without what is skipped at its start. -/
def skip (m : Modes) (cs : List Char) : List Char :=
  if m.isVerbose then skipRemarks false cs else cs

/-- The next character that counts, where a number sign is passed over like a blank, once. -/
def peek? (m : Modes) (cs : List Char) : Option Char :=
  if m.isVerbose then
    match cs.dropWhile isBlank with
    | '#' :: cs => (cs.dropWhile isBlank).head?
    | cs => cs.head?
  else cs.head?

/-- The letters of all modes. Some of them change what a pattern matches, but not its form. -/
def letters : List Char :=
  ['i', 'm', 's', 'U', 'u', 'R', 'x']

/-- What a mode becomes when its letter stands among `on` or among `off`. -/
def change (on off : List Char) (letter : Char) (mode : Bool) : Bool :=
  on.contains letter || (mode && !off.contains letter)

/-- The modes behind letters that turn modes on and, behind a dash, off. -/
def set (m : Modes) (marks : List Char) : Modes :=
  let on := marks.takeWhile (· != '-')
  let off := marks.dropWhile (· != '-')
  { ignoresCase := change on off 'i' m.ignoresCase
    isUnicode := change on off 'u' m.isUnicode
    isVerbose := change on off 'x' m.isVerbose }

end Modes

/-- A part of a pattern that has no parts. -/
inductive Atom where
  /-- A character; `isByte` if it is written as the two digits of a byte. -/
  | literal (char : Char) (isByte : Bool)
  /-- The class of digits, of blanks or of the characters of words, or what is outside of it. -/
  | shorthand (isNegated : Bool)
  /-- A condition on the place; `onWords` if it asks which characters belong to words. -/
  | assertion (onWords : Bool)
deriving DecidableEq, Repr

namespace Atom

/-- Can the atom be used outside of brackets? -/
def isUsable (m : Modes) : Atom → Bool
  | .literal c isByte => if m.isUnicode then !m.ignoresCase else !isByte || c.toNat < 0x80
  | .shorthand isNegated => !m.isUnicode && !isNegated
  | .assertion onWords => !(m.isUnicode && onWords)

/-- Can the atom be used between brackets? -/
def isMember (m : Modes) : Atom → Bool
  | .literal c _ => if m.isUnicode then !m.ignoresCase else c.toNat < 0x80
  | .shorthand isNegated => !m.isUnicode && !isNegated
  | .assertion _ => false

end Atom

/-! ## Escapes -/

/-- Reads `n` hexadecimal digits behind a number whose value so far is `value`. -/
def readHex (m : Modes) : Nat → Nat → List Char → Option (Nat × List Char)
  | 0, value, cs => some (value, cs)
  | _ + 1, _, [] => none
  | n + 1, value, c :: cs => do
    let digit ← Numeral.digit? 16 c
    readHex m n (value * 16 + digit) (m.skip cs)

/-- Reads the code point of a character in `n` hexadecimal digits. -/
def readCodePoint (m : Modes) (n : Nat) (cs : List Char) : Option (Char × List Char) := do
  let (value, rest) ← readHex m n 0 (m.skip cs)
  if value.isValidChar then return (Char.ofNat value, rest) else none

/-- The atom that a single character denotes behind a backslash. A sign stands for itself; the
letters and digits that mean nothing are kept free. -/
def Atom.ofEscaped? : Char → Option Atom
  | 'd' | 's' | 'w' => some (.shorthand false)
  | 'D' | 'S' | 'W' => some (.shorthand true)
  | 'A' | 'z' => some (.assertion false)
  | 'b' | 'B' | '<' | '>' => some (.assertion true)
  | 'a' => some (.literal '\x07' false)
  | 'f' => some (.literal '\x0c' false)
  | 't' => some (.literal '\t' false)
  | 'n' => some (.literal '\n' false)
  | 'r' => some (.literal '\r' false)
  | 'v' => some (.literal '\x0b' false)
  | c => if c.toNat < 0x80 && !c.isAlphanum then some (.literal c false) else none

/-- Reads the rest of an escape behind its backslash. Properties of characters are not known. -/
def readEscape (m : Modes) : List Char → Option (Atom × List Char)
  | [] => none
  | 'x' :: cs => do
    let (c, rest) ← readCodePoint m 2 cs
    return (.literal c true, rest)
  | 'u' :: cs => do
    let (c, rest) ← readCodePoint m 4 cs
    return (.literal c false, rest)
  | 'U' :: cs => do
    let (c, rest) ← readCodePoint m 8 cs
    return (.literal c false, rest)
  | c :: rest => do return (← Atom.ofEscaped? c, rest)

end Accumulator.Pattern
