import Accumulator.Log.Pattern.Bracket
import Accumulator.Text.Alphanumeric

/-!
# Patterns

A filter can ask that the value of a field match a pattern, a regular expression. Since the values
asked for belong to code regions that this program does not mark, no pattern is ever matched; but
one that cannot be used spoils its filter. `Pattern.isUsable` decides that: the pattern must be well
formed, must not nest too deeply, and must make do with what the matcher knows of characters.

The reader keeps of a part only how deeply it nests. In a filter a closing brace ends the pattern,
so there is no counted repetition: an opening brace outside of brackets stands alone and is refused.
-/

namespace Accumulator.Pattern

/-- How deeply a pattern may nest. -/
def maxDepth : Nat :=
  250

/-- A part of a sequence. -/
structure Part where
  /-- How deeply it nests. -/
  depth : Nat := 0
  /-- Can it be repeated? A change of modes cannot. -/
  isRepeatable : Bool := true
deriving DecidableEq, Repr

/-- A group whose closing bracket is not read yet; the whole pattern is one too. -/
structure OpenGroup where
  /-- The modes in force where the reader stands. -/
  modes : Modes := {}
  /-- How deeply the alternatives nest that are complete. -/
  alternatives : List Nat := []
  /-- The parts of the last alternative, the last part first. -/
  parts : List Part := []

namespace OpenGroup

/-- The group with one more part. -/
def add (g : OpenGroup) (part : Part) : OpenGroup :=
  { g with parts := part :: g.parts }

/-- The group behind the bar that ends an alternative. -/
def alternate (g : OpenGroup) : OpenGroup :=
  { g with alternatives := depthOfParts (g.parts.map (·.depth)) :: g.alternatives, parts := [] }

/-- The group with its last part repeated, if there is one. -/
def repeat? (g : OpenGroup) : Option OpenGroup :=
  match g.parts with
  | ⟨depth, true⟩ :: parts => some { g with parts := ⟨depth + 1, true⟩ :: parts }
  | _ => none

/-- How deeply the inside of the group nests. -/
def depth (g : OpenGroup) : Nat :=
  depthOfParts g.alternate.alternatives

end OpenGroup

/-! ## What stands behind an opening bracket -/

/-- What an opening bracket starts. -/
inductive Opening where
  /-- A group with the modes inside it and its name. -/
  | group (modes : Modes) (name : Option (List Char))
  /-- A change of modes for the rest of the group around it. -/
  | change (modes : Modes)

/-- Can the character stand in the name of a group? -/
def isNameChar (c : Char) : Bool :=
  isAlphanumeric c || c == '_' || c == '.' || c == '[' || c == ']'

/-- Reads the name of a group up to its closing angle bracket. -/
def readName (cs : List Char) : Option (List Char × List Char) :=
  let name := cs.takeWhile (· != '>')
  match name, cs.drop name.length with
  | first :: others, _ :: rest =>
    if (isAlphabetic first || first == '_') && others.all isNameChar then some (name, rest)
    else none
  | _, _ => none

/-- Are these letters of modes, with at most one dash among them and no letter twice? -/
def areMarks (marks : List Char) : Bool :=
  marks.all (fun c => c == '-' || Modes.letters.contains c) && marks.Nodup &&
    marks.getLast? != some '-'

/-- Reads letters of modes up to a closing bracket, behind which they are in force for the group
around them, or up to a colon, which starts a group. -/
def readMarks (m : Modes) (cs : List Char) : Option (Opening × List Char) :=
  let marks := cs.takeWhile fun c => c != ')' && c != ':'
  if areMarks marks then
    match cs.drop marks.length with
    | ':' :: rest => some (.group (m.set marks) none, rest)
    | ')' :: rest => if marks.isEmpty then none else some (.change (m.set marks), rest)
    | _ => none
  else none

/-- Reads what follows an opening bracket. A condition on the text around a place is not known. -/
def readGroupOpening (m : Modes) (cs : List Char) : Option (Opening × List Char) :=
  match m.skip cs with
  | '?' :: '=' :: _ | '?' :: '!' :: _ | '?' :: '<' :: '=' :: _ | '?' :: '<' :: '!' :: _ => none
  | '?' :: 'P' :: '<' :: rest | '?' :: '<' :: rest =>
    (readName rest).map fun (name, rest) => (.group m (some name), rest)
  | '?' :: rest => readMarks m rest
  | rest => some (.group m none, rest)

/-! ## The whole pattern -/

/-- Reads a part that is no group: how deeply it nests, and the characters behind it. -/
def readPart (m : Modes) : List Char → Option (Nat × List Char)
  | [] => none
  | '[' :: cs => readClass m cs
  | '\\' :: cs => do
    let (atom, rest) ← readEscape m cs
    if atom.isUsable m then return (0, rest) else none
  | '.' :: rest => if m.isUnicode then some (0, rest) else none
  | '^' :: rest | '$' :: rest => some (0, rest)
  | '{' :: _ => none
  | c :: rest => if (Atom.literal c false).isUsable m then some (0, rest) else none

/-- The text behind the mark of a repetition, of which a question mark is a part. -/
def dropLazy : List Char → List Char
  | '?' :: cs => cs
  | cs => cs

/-- Reads a pattern from inside a group on: how deeply the whole nests. The groups around the one
at hand are in `outer`, the nearest first, and the names given so far in `names`. Every step takes a
character, so their number bounds the steps. -/
def readFrom : Nat → List (List Char) → List OpenGroup → OpenGroup → List Char → Option Nat
  | 0, _, _, _, _ => none
  | bound + 1, names, outer, g, cs =>
    match g.modes.skip cs with
    | [] => if outer.isEmpty then some g.depth else none
    | '(' :: rest => do
      match ← readGroupOpening g.modes rest with
      | (.group modes none, rest) => readFrom bound names (g :: outer) { modes } rest
      | (.group modes (some name), rest) =>
        if names.contains name then none
        else readFrom bound (name :: names) (g :: outer) { modes } rest
      | (.change modes, rest) =>
        readFrom bound names outer { g.add { isRepeatable := false } with modes } rest
    | ')' :: rest =>
      match outer with
      | [] => none
      | g' :: outer => readFrom bound names outer (g'.add { depth := 1 + g.depth }) rest
    | '|' :: rest => readFrom bound names outer g.alternate rest
    | '?' :: rest | '*' :: rest | '+' :: rest => do
      readFrom bound names outer (← g.repeat?) (dropLazy rest)
    | cs => do
      let (depth, rest) ← readPart g.modes cs
      readFrom bound names outer (g.add { depth }) rest

/-- Can the pattern be used? -/
def isUsable (cs : List Char) : Bool :=
  (readFrom (cs.length + 1) [] [] {} cs).any (· ≤ maxDepth)

end Accumulator.Pattern
