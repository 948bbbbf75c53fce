import Accumulator.Log.Pattern.Atom

/-!
# Classes of characters in brackets

A class lists characters, ranges, named classes and further classes in brackets, and combines such
lists by set operations. `readClass` finds where a class ends and how deeply it nests, if it can be
used under the modes in force: a class of bytes must have members below 0x80 only, so it is not
negated, and a class of characters cannot be extended to the other case of its members.
-/

namespace Accumulator.Pattern

/-- How deeply parts side by side nest: the list is a level of its own unless it has one part. -/
def depthOfParts : List Nat → Nat
  | [] => 0
  | [depth] => depth
  | depths => 1 + depths.foldl max 0

/-- The names of classes that are written between brackets and colons. -/
def classNames : List String :=
  ["alnum", "alpha", "ascii", "blank", "cntrl", "digit", "graph", "lower", "print", "punct",
    "space", "upper", "word", "xdigit"]

/-- Reads a named class behind its opening bracket: whether it is negated. -/
def readNamed : List Char → Option (Bool × List Char)
  | ':' :: cs =>
    let isNegated := cs.head? == some '^'
    let cs := if isNegated then cs.drop 1 else cs
    match cs.dropWhile (· != ':') with
    | ':' :: ']' :: rest =>
      if classNames.contains (String.ofList (cs.takeWhile (· != ':'))) then some (isNegated, rest)
      else none
    | _ => none
  | _ => none

/-- A class whose closing bracket is not read yet. -/
structure OpenClass where
  /-- How deeply the set nests that a set operation will take as its left side. -/
  left : Option Nat := none
  /-- How deeply the members nest that were listed since then. -/
  members : List Nat := []
  /-- Was nothing read but dashes? There a dash is a member, and so is a closing bracket in front
  of all others. -/
  isFresh : Bool := false

namespace OpenClass

/-- How deeply the set nests that was read so far. -/
def depth (c : OpenClass) : Nat :=
  match c.left with
  | none => depthOfParts c.members
  | some left => 1 + max left (depthOfParts c.members)

/-- The class with one more member. -/
def add (c : OpenClass) (depth : Nat) : OpenClass :=
  { c with members := depth :: c.members, isFresh := false }

/-- The class behind a set operation. -/
def operate (c : OpenClass) : OpenClass :=
  { left := some c.depth }

end OpenClass

/-- Reads what follows an opening bracket: whether the class is negated. -/
def readOpening (m : Modes) (cs : List Char) : Option (OpenClass × List Char) :=
  match m.skip cs with
  | '^' :: rest => if m.isUnicode then some ({ isFresh := true }, rest) else none
  | rest => some ({ isFresh := true }, rest)

/-- Reads a character or an escape, if it can be a member. -/
def readMember (m : Modes) : List Char → Option (Atom × List Char)
  | [] => none
  | '\\' :: cs => (readEscape m cs).filter (·.1.isMember m)
  | c :: cs => if (Atom.literal c false).isMember m then some (.literal c false, cs) else none

/-- Reads a member or a range: the characters behind it. A dash in front of a closing bracket or of
another dash makes no range. -/
def readRange (m : Modes) (cs : List Char) : Option (List Char) := do
  let (first, rest) ← readMember m cs
  match m.skip rest with
  | '-' :: behind =>
    if m.peek? behind == some ']' || m.peek? behind == some '-' then return '-' :: behind
    else
      match first, ← readMember m (m.skip behind) with
      | .literal first _, (.literal last _, rest) =>
        if first.toNat ≤ last.toNat then return rest else none
      | _, _ => none
  | rest => return rest

/-- Reads a class behind its opening bracket or in the midst of it: how deeply it nests, and the
characters behind it. The classes around the one at hand are in `outer`, the nearest first. Every
step takes a character, so their number bounds the steps. -/
def readClassFrom (m : Modes) : Nat → List OpenClass → OpenClass → List Char →
    Option (Nat × List Char)
  | 0, _, _, _ => none
  | bound + 1, outer, c, cs =>
    match m.skip cs, c.isFresh, c.members.isEmpty with
    | [], _, _ => none
    | '-' :: rest, true, _ => do
      let _ ← readMember m ['-']
      readClassFrom m bound outer { c.add 0 with isFresh := true } rest
    | ']' :: rest, true, true => do
      let _ ← readMember m [']']
      readClassFrom m bound outer (c.add 0) rest
    | ']' :: rest, _, _ =>
      match outer with
      | [] => some (1 + c.depth, rest)
      | c' :: outer => readClassFrom m bound outer (c'.add (1 + c.depth)) rest
    | '[' :: rest, _, _ =>
      match readNamed rest with
      | some (isNegated, rest) =>
        if m.isUnicode && !m.ignoresCase || !m.isUnicode && !isNegated then
          readClassFrom m bound outer (c.add 0) rest
        else none
      | none => do
        let (inner, rest) ← readOpening m rest
        readClassFrom m bound (c :: outer) inner rest
    | '&' :: '&' :: rest, _, _ => readClassFrom m bound outer c.operate rest
    | '-' :: '-' :: rest, _, _ => readClassFrom m bound outer c.operate rest
    | '~' :: '~' :: rest, _, _ => readClassFrom m bound outer c.operate rest
    | cs, _, _ => do
      let rest ← readRange m cs
      readClassFrom m bound outer (c.add 0) rest

/-- Reads a class behind its opening bracket: how deeply it nests, and the characters behind it. -/
def readClass (m : Modes) (cs : List Char) : Option (Nat × List Char) := do
  let (c, rest) ← readOpening m cs
  readClassFrom m (rest.length + 1) [] c rest

end Accumulator.Pattern
