import Accumulator.Log
import Accumulator.Log.Pattern
import Accumulator.Text.Alphanumeric
import Accumulator.Text.Blank
import Accumulator.Text.Decimal
import Accumulator.Text.Numeral

/-!
# Directives of a log filter

A directive is written `source[span{field}]=level` with most parts optional. It concerns the events
whose source starts with its own and which have its field, and lets through those that matter as
much as its level. A directive with a span or with the value of a field is about code regions that
this program does not mark, so it concerns no event.

The form of a directive is settled without the blanks around it, and tells where its parts lie; the
parts are then cut out of the text as it stands (`Parts.cutFrom`). So behind blanks every part is
cut out too far to the left: the source has a blank in it then and the level an equals sign.
-/

namespace Accumulator

/-- One directive of a filter. -/
structure Directive where
  /-- How the source of an event starts; `none` for every source. -/
  source : Option String
  /-- The name of a field that an event must have. -/
  field : Option String
  /-- Is the directive about a span or about the value of a field? -/
  isScoped : Bool
  /-- The least important level that is written. -/
  threshold : LogLevel
deriving DecidableEq, Repr

namespace Directive

/-- A directive on all events of the sources that start with `source`. -/
def ofSource (source : Option String) (threshold : LogLevel) : Directive :=
  { source, field := none, isScoped := false, threshold }

/-- Does the directive speak about the event? -/
def concerns (d : Directive) (e : Event) : Bool :=
  !d.isScoped && d.source.all (·.isPrefixOf e.source) &&
    d.field.all fun name => name == "message" || (e.fields.map (·.1)).contains name

/-- The length of the source that a directive names, plus one; zero if it names none. -/
def sourceLength (d : Directive) : Nat :=
  match d.source with
  | some source => source.utf8ByteSize + 1
  | none => 0

/-- Is the name of a field, if there is one, at least as far back in the alphabet? -/
def fieldOutranks : Option String → Option String → Bool
  | _, none => true
  | none, some _ => false
  | some name, some name' => !(name.toList.lex name'.toList fun c c' => c.toNat < c'.toNat)

/-- Is `d` at least as specific as `d'`? Between sources of one length the fields decide. -/
def outranks (d d' : Directive) : Bool :=
  if d.sourceLength ≠ d'.sourceLength then d'.sourceLength < d.sourceLength
  else fieldOutranks d.field d'.field

/-! ## The form of a directive -/

/-- The parts of a directive as they are written. -/
structure Parts where
  /-- What stands in front of the brackets and the equals sign. -/
  source : List Char
  /-- The name of a span between brackets, and a field in braces behind it. -/
  scope : Option (List Char × Option (List Char))
  /-- The level behind the equals sign. -/
  level : Option (List Char)
deriving DecidableEq, Repr

/-- Reads the scope behind its opening bracket: the name of a span, the field, and the rest. A field
is not empty, and no closing brace is in it. -/
def readScope (cs : List Char) : Option ((List Char × Option (List Char)) × List Char) :=
  let span := cs.takeWhile fun c => c != ']' && c != '{'
  match cs.drop span.length with
  | ']' :: rest => some ((span, none), rest)
  | '{' :: rest =>
    let field := rest.takeWhile (· != '}')
    match field, rest.drop field.length with
    | _ :: _, '}' :: ']' :: rest => some ((span, some field), rest)
    | _, _ => none
  | _ => none

/-- Reads what may follow a source or a scope: nothing, or an equals sign and a level. -/
def readLevel : List Char → Option (Option (List Char))
  | [] => some none
  | '=' :: level => some (some level)
  | _ => none

/-- May a directive start with this character, if not with a bracket? -/
def startsName (c : Char) : Bool :=
  isAlphanumeric c || c == '-' || c == ':' || c == '_'

/-- Reads the parts of a directive with no blanks around it. -/
def Parts.read (cs : List Char) : Option Parts := do
  let source := cs.takeWhile fun c => c != '=' && c != '['
  guard ((← cs.head?) == '[' || source.head?.any startsName)
  match cs.drop source.length with
  | '[' :: rest =>
    let (scope, rest) ← readScope rest
    return { source, scope, level := ← readLevel rest }
  | rest => return { source, scope := none, level := ← readLevel rest }

/-! ## Where the parts lie -/

/-- The number of bytes that a text takes. -/
def byteCount : List Char → Nat
  | [] => 0
  | c :: cs => c.utf8Size + byteCount cs

/-- A text without its first `n` bytes, unless a character lies across that place. -/
def dropBytes : Nat → List Char → Option (List Char)
  | 0, cs => some cs
  | _ + 1, [] => none
  | n + 1, c :: cs => if c.utf8Size ≤ n + 1 then dropBytes (n + 1 - c.utf8Size) cs else none

/-- The first `n` bytes of a text, unless a character lies across their end. -/
def takeBytes : Nat → List Char → Option (List Char)
  | 0, _ => some []
  | _ + 1, [] => none
  | n + 1, c :: cs =>
    if c.utf8Size ≤ n + 1 then (takeBytes (n + 1 - c.utf8Size) cs).map (c :: ·) else none

/-- What lies in `cs` where the bytes of `part` would, behind `place` others. -/
def cut (cs : List Char) (place : Nat) (part : List Char) : Option (List Char) := do
  takeBytes (byteCount part) (← dropBytes place cs)

/-- The parts that lie in `cs` where these parts would in a text of their own. -/
def Parts.cutFrom (cs : List Char) (p : Parts) : Option Parts := do
  let source ← cut cs 0 p.source
  let place := byteCount p.source
  let (scope, place) ← match p.scope with
    | none => pure (none, place)
    | some (span, none) =>
      pure (some (← cut cs (place + 1) span, none), place + byteCount span + 2)
    | some (span, some field) =>
      let fieldPlace := place + byteCount span + 2
      pure (some (← cut cs (place + 1) span, some (← cut cs fieldPlace field)),
        fieldPlace + byteCount field + 2)
  let level ← p.level.mapM fun _ => dropBytes (place + 1) cs
  return { source, scope, level }

/-! ## What the parts mean -/

/-- The level that a text names: a name in any case, or its rank. -/
def level? (cs : List Char) : Option LogLevel :=
  match Numeral.read 10 5 cs with
  | .ok rank => LogLevel.all[rank]?
  | .error _ =>
    if cs.isEmpty then some .error
    else LogLevel.all.find? fun l => l.name.toList == cs.map Char.toLower

/-- The threshold of a directive. Without a level everything is let through. -/
def threshold? : Option (List Char) → Option LogLevel
  | none | some [] => some .trace
  | some level => level? level

/-- Can a field have this value in a directive? A value that is no number is a pattern. -/
def isValue (cs : List Char) : Bool :=
  Decimal.isNumeral cs || Pattern.isUsable cs

/-- Reads a field: its name, and whether a value is asked for. A second equals sign ends the
value. -/
def readField (cs : List Char) : Option (String × Bool) :=
  let name := cs.takeWhile (· != '=')
  match cs.drop name.length with
  | [] => some (String.ofList name, false)
  | _ :: value =>
    if isValue (value.takeWhile (· != '=')) then some (String.ofList name, true) else none

/-- The directive with these parts. -/
def ofParts (p : Parts) : Option Directive := do
  let threshold ← threshold? p.level
  let source := if p.source.isEmpty then none else some (String.ofList p.source)
  match p.scope with
  | none => return .ofSource source threshold
  | some (_, none) => return { source, field := none, isScoped := true, threshold }
  | some (span, some field) =>
    let (name, hasValue) ← readField field
    return { source, field := some name, isScoped := !span.isEmpty || hasValue, threshold }

/-- Reads one directive. A single word names a level or else a source, and the blanks around it
belong to it. -/
def read (cs : List Char) : Option Directive := do
  let parts ← Parts.read (trimBlank cs)
  match parts.scope, parts.level with
  | none, none =>
    match level? cs with
    | some threshold => return .ofSource none threshold
    | none => return .ofSource (some (String.ofList cs)) .trace
  | _, _ => ofParts (← parts.cutFrom cs)

end Directive
end Accumulator
