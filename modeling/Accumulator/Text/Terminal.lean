/-!
# Text for a terminal

A terminal does not show all of a text. A control character acts on it, and an escape character
starts a control sequence, which moves the cursor or changes colours. `plain` is what is left of
a text where there is no terminal: the characters to be shown, without any sequence.
-/

namespace Accumulator.Terminal

/-- The control characters that set a text out: tab, line feed, form feed and carriage return. -/
def isLayout (c : Char) : Bool :=
  c == '\t' || c == '\n' || c == '\x0c' || c == '\r'

/-- Is the character shown where it belongs to no sequence? -/
def isShown (c : Char) : Bool :=
  isLayout c || (0x20 ≤ c.toNat && c.toNat != 0x7F)

/-- A place in a text, seen from the sequences in it. -/
inductive Place where
  /-- Outside of all sequences. -/
  | text
  /-- Behind an escape character. -/
  | escape
  /-- In a sequence that a letter or digit ends. -/
  | escapeTail
  /-- In a control sequence, which a letter ends. -/
  | control
  /-- Behind the start of a device string. -/
  | device
  /-- In the parameters of a device string. -/
  | deviceParameter
  /-- Behind the parameters of a device string. -/
  | deviceTail
  /-- In a command to the operating system, which a bell ends. -/
  | command
  /-- In a string, which the byte of the string terminator ends. -/
  | string
deriving DecidableEq, Repr

namespace Place

/-- Does the place take the character for text? Layout counts even in an unfinished sequence. -/
def shows : Place → Char → Bool
  | .text, _ => true
  | .escape, c | .escapeTail, c | .control, c => isLayout c
  | _, _ => false

/-- The place behind an escape character and one more. -/
def ofEscaped (c : Char) : Place :=
  match c with
  | '[' => .control
  | ']' => .command
  | 'P' => .device
  | 'X' | '^' | '_' => .string
  | c =>
    if c.toNat < 0x20 || 0x7F ≤ c.toNat then .escape
    else if c.toNat < 0x30 then .escapeTail
    else .text

/-- The place behind a character that is not shown. Three characters act in all places: an escape
starts a new sequence, and a cancel or a substitute ends the one at hand. -/
def next (p : Place) (c : Char) : Place :=
  let n := c.toNat
  if n = 0x1B then .escape
  else if n = 0x18 ∨ n = 0x1A then .text
  else match p with
  | .text => .text
  | .escape => ofEscaped c
  | .escapeTail => if 0x30 ≤ n ∧ n < 0x7F then .text else p
  | .control => if 0x40 ≤ n ∧ n < 0x7F then .text else p
  | .device =>
    if n < 0x20 ∨ 0x7F ≤ n then p
    else if n < 0x30 then .deviceTail
    else if n < 0x40 then .deviceParameter
    else .string
  | .deviceParameter =>
    if n < 0x20 ∨ 0x7F ≤ n then p
    else if n < 0x30 then .deviceTail
    else if n < 0x3C then p
    else .string
  | .deviceTail => if 0x30 ≤ n ∧ n < 0x7F then .string else p
  | .command => if n = 0x07 then .text else p
  | .string => if (String.utf8EncodeChar c).contains 0x9C then .text else p

end Place

/-- What is shown of a text that starts at place `p`. Text goes on up to the next character that is
not shown, also behind the layout in an unfinished sequence, which is taken up again there. A
character beyond ASCII ends that sequence. -/
def plainFrom (p : Place) (isShowing : Bool) : List Char → List Char
  | [] => []
  | c :: cs =>
    if isShown c && (isShowing || p.shows c) then
      c :: plainFrom (if c.toNat < 0x80 then p else .text) true cs
    else plainFrom (p.next c) false cs

/-- A text without control characters and sequences. -/
def plain (s : String) : String :=
  String.ofList (plainFrom .text false s.toList)

/-- A text set off by its colour. -/
def highlight (s : String) : String :=
  "\x1b[33m" ++ s ++ "\x1b[0m"

end Accumulator.Terminal
