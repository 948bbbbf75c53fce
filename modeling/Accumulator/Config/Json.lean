import Accumulator.Text.Numeral

/-!
# JSON texts

A JSON text as a tree, and a reader that accepts exactly the grammar of JSON. Strings are kept as
code points: an escape may give half of a surrogate pair, which is well-formed but denotes no
text, and `Json.text?` is where pairs are joined. Of a number only its value as a plain run of
digits is kept, since no setting has a sign, a fraction or an exponent.

The reader works on a list of characters and answers with what it read and the characters behind
it. It is structurally recursive in a bound on its depth; every two calls consume a character, so
twice the length of the text is bound enough.
-/

namespace Accumulator

/-- A JSON value. -/
inductive Json where
  | null
  | bool (value : Bool)
  /-- A number; its value if it is written with digits alone. -/
  | number (natural : Option Nat)
  /-- A string, as the code points of its characters and escapes. -/
  | string (points : List Nat)
  | array (items : List Json)
  /-- An object: its keys with their values, in the order of the text. -/
  | object (members : List (List Nat × Json))

namespace Json

/-! ## Strings -/

/-- The white space of JSON. -/
def isSpace (c : Char) : Bool :=
  c == ' ' || c == '\t' || c == '\n' || c == '\r'

/-- A text without the white space it starts with. -/
def skipSpace (cs : List Char) : List Char :=
  cs.dropWhile isSpace

/-- The character that a one-letter escape stands for. -/
def escaped? : Char → Option Char
  | '"' => some '"'
  | '\\' => some '\\'
  | '/' => some '/'
  | 'b' => some '\x08'
  | 'f' => some '\x0c'
  | 'n' => some '\n'
  | 'r' => some '\r'
  | 't' => some '\t'
  | _ => none

/-- The value of four hexadecimal digits. -/
def hex4? (a b c d : Char) : Option Nat := do
  let a ← Numeral.digit? 16 a
  let b ← Numeral.digit? 16 b
  let c ← Numeral.digit? 16 c
  let d ← Numeral.digit? 16 d
  return ((a * 16 + b) * 16 + c) * 16 + d

/-- Reads a string behind its opening quote: its code points. A control character must be escaped.
-/
def readString : List Char → Option (List Nat × List Char)
  | [] => none
  | '"' :: rest => some ([], rest)
  | '\\' :: 'u' :: a :: b :: c :: d :: rest => do
    let point ← hex4? a b c d
    let (points, rest) ← readString rest
    return (point :: points, rest)
  | '\\' :: c :: rest => do
    let char ← escaped? c
    let (points, rest) ← readString rest
    return (char.toNat :: points, rest)
  | c :: rest =>
    if c.toNat < 0x20 ∨ c = '\\' then none
    else do
      let (points, rest) ← readString rest
      return (c.toNat :: points, rest)

/-- Is it the first half of a surrogate pair? -/
def isHighSurrogate (point : Nat) : Bool :=
  0xD800 ≤ point && point < 0xDC00

/-- Is it the second half of a surrogate pair? -/
def isLowSurrogate (point : Nat) : Bool :=
  0xDC00 ≤ point && point < 0xE000

/-- The text that code points denote: pairs of surrogates are joined, and a half on its own denotes
nothing. -/
def text? : List Nat → Option (List Char)
  | [] => some []
  | [point] =>
    if isHighSurrogate point || isLowSurrogate point then none else some [Char.ofNat point]
  | point :: next :: rest =>
    if isLowSurrogate point then none
    else if isHighSurrogate point then
      if isLowSurrogate next then
        (text? rest).map (Char.ofNat (0x10000 + (point - 0xD800) * 0x400 + (next - 0xDC00)) :: ·)
      else none
    else (text? (next :: rest)).map (Char.ofNat point :: ·)

/-! ## Numbers -/

/-- A decimal digit of ASCII. -/
def isDigit (c : Char) : Bool :=
  '0' ≤ c && c ≤ '9'

/-- Reads a non-empty run of digits. -/
def readDigits (cs : List Char) : Option (List Char × List Char) :=
  match cs.takeWhile isDigit with
  | [] => none
  | digits => some (digits, cs.dropWhile isDigit)

/-- Reads the whole part of a number: a zero alone or digits that do not start with one. -/
def readWhole : List Char → Option (List Char × List Char)
  | '0' :: rest => some (['0'], rest)
  | cs => readDigits cs

/-- Reads a fraction if there is one; says whether there was. -/
def readFraction : List Char → Option (Bool × List Char)
  | '.' :: rest => do
    let (_, rest) ← readDigits rest
    return (true, rest)
  | cs => some (false, cs)

/-- Reads an exponent if there is one; says whether there was. -/
def readExponent : List Char → Option (Bool × List Char)
  | c :: rest =>
    if c = 'e' ∨ c = 'E' then do
      let digits := match rest with
        | '+' :: digits | '-' :: digits => digits
        | digits => digits
      let (_, rest) ← readDigits digits
      return (true, rest)
    else some (false, c :: rest)
  | [] => some (false, [])

/-- The value of a run of decimal digits. -/
def valueOfDigits (digits : List Char) : Nat :=
  Nat.ofDigitChars 10 digits 0

/-- Reads a number behind its sign. -/
def readUnsigned (cs : List Char) : Option (Option Nat × List Char) := do
  let (whole, rest) ← readWhole cs
  let (hasFraction, rest) ← readFraction rest
  let (hasExponent, rest) ← readExponent rest
  return (if hasFraction || hasExponent then none else some (valueOfDigits whole), rest)

/-- Reads a number. -/
def readNumber : List Char → Option (Json × List Char)
  | '-' :: rest => do
    let (_, rest) ← readUnsigned rest
    return (.number none, rest)
  | cs => do
    let (natural, rest) ← readUnsigned cs
    return (.number natural, rest)

/-! ## Values -/

mutual
/-- Reads a value, white space in front of it included. -/
def readValue : Nat → List Char → Option (Json × List Char)
  | 0, _ => none
  | depth + 1, cs =>
    match skipSpace cs with
    | 'n' :: 'u' :: 'l' :: 'l' :: rest => some (.null, rest)
    | 't' :: 'r' :: 'u' :: 'e' :: rest => some (.bool true, rest)
    | 'f' :: 'a' :: 'l' :: 's' :: 'e' :: rest => some (.bool false, rest)
    | '"' :: rest => (readString rest).map fun (points, rest) => (.string points, rest)
    | '[' :: rest =>
      match skipSpace rest with
      | ']' :: rest => some (.array [], rest)
      | rest => (readItems depth rest).map fun (items, rest) => (.array items, rest)
    | '{' :: rest =>
      match skipSpace rest with
      | '}' :: rest => some (.object [], rest)
      | rest => (readMembers depth rest).map fun (members, rest) => (.object members, rest)
    | rest => readNumber rest

/-- Reads the items of a list up to its closing bracket, at least one. -/
def readItems : Nat → List Char → Option (List Json × List Char)
  | 0, _ => none
  | depth + 1, cs => do
    let (item, rest) ← readValue depth cs
    match skipSpace rest with
    | ',' :: rest =>
      let (items, rest) ← readItems depth rest
      return (item :: items, rest)
    | ']' :: rest => return ([item], rest)
    | _ => none

/-- Reads the members of an object up to its closing brace, at least one. -/
def readMembers : Nat → List Char → Option (List (List Nat × Json) × List Char)
  | 0, _ => none
  | depth + 1, cs =>
    match skipSpace cs with
    | '"' :: rest => do
      let (key, rest) ← readString rest
      match skipSpace rest with
      | ':' :: rest => do
        let (value, rest) ← readValue depth rest
        match skipSpace rest with
        | ',' :: rest =>
          let (members, rest) ← readMembers depth rest
          return ((key, value) :: members, rest)
        | '}' :: rest => return ([(key, value)], rest)
        | _ => none
      | _ => none
    | _ => none
end

/-- The value that a whole text denotes. -/
def parse (text : List Char) : Option Json := do
  let (value, rest) ← readValue (2 * text.length + 1) text
  guard (skipSpace rest).isEmpty
  return value

end Json
end Accumulator
