import Accumulator.Command.Number
import Accumulator.Text.Terminal

/-!
# The command line

`Request.ofArguments` reads the arguments of the program. A subcommand comes first, and options of
`run` follow it, each at most once. The value of an option is joined to it, `--dump=0..4` or
`-iprog.hex`, or is the next argument, which must not look like an option itself. A joined value
is checked at once; a detached one when the next option is met or the arguments end, so an
argument that no option explains is reported before a bad value in front of it.
-/

namespace Accumulator.Command

/-! ## Options -/

/-- An option of `run` that takes a value. -/
inductive Setting where
  | image
  | config
  | origin
  | maxSteps
  | dump
deriving DecidableEq, Repr

namespace Setting

/-- All settings. -/
def all : List Setting :=
  [.image, .config, .origin, .maxSteps, .dump]

/-- The name behind two dashes. -/
def name : Setting → String
  | .image => "image"
  | .config => "config"
  | .origin => "origin"
  | .maxSteps => "max-steps"
  | .dump => "dump"

/-- The letter behind one dash, if there is one. -/
def letter? : Setting → Option Char
  | .image => some 'i'
  | .config => some 'c'
  | .origin | .maxSteps | .dump => none

/-- What stands for the value. -/
def placeholder : Setting → String
  | .image => "IMAGE"
  | .config => "CONFIG"
  | .origin => "ORIGIN"
  | .maxSteps => "MAX_STEPS"
  | .dump => "DUMP"

/-- The setting as messages show it. -/
def text (s : Setting) : String :=
  "--" ++ s.name ++ " <" ++ s.placeholder ++ ">"

end Setting

/-- The options given to `run`. -/
structure RunOptions where
  /-- The file of the image; the built-in image if missing. -/
  image : Option String := none
  /-- The file of the settings. -/
  config : Option String := none
  /-- Overrides the origin of the settings. -/
  origin : Option UInt16 := none
  /-- Overrides the budget of the settings. -/
  maxSteps : Option UInt64 := none
  /-- The words to show after the run. -/
  dump : Option WordRange := none
  /-- Is every instruction traced? -/
  trace : Bool := false
deriving DecidableEq, Repr

/-- The words to show unless something else is asked for. -/
def defaultDump : WordRange :=
  ⟨0x80, 0x90⟩

/-- Was a value for the setting given already? -/
def RunOptions.has (o : RunOptions) : Setting → Bool
  | .image => o.image.isSome
  | .config => o.config.isSome
  | .origin => o.origin.isSome
  | .maxSteps => o.maxSteps.isSome
  | .dump => o.dump.isSome

/-- What the arguments ask for. -/
inductive Request where
  /-- There was no subcommand. -/
  | greeting
  | help
  | version
  | run (options : RunOptions)
deriving DecidableEq, Repr

/-! ## Errors -/

/-- Why a value is refused. -/
inductive ValueError where
  | number (error : NumberError)
  | range (error : RangeError)
  | numeral (error : NumeralError)
deriving DecidableEq, Repr

/-- The error in words. -/
def ValueError.message : ValueError → String
  | .number error => error.message
  | .range error => error.message
  | .numeral error => error.message

/-- Why arguments are refused. -/
inductive UsageError where
  /-- An argument that nothing explains. -/
  | unexpectedArgument (argument : String)
  | unrecognizedSubcommand (word : String)
  /-- A value is joined to an option that takes none. -/
  | unexpectedValue (value option : String)
  | missingValue (setting : Setting)
  /-- The option, as messages show it, was given before. -/
  | repeated (option : String)
  | invalidValue (setting : Setting) (value : String) (error : ValueError)
deriving DecidableEq, Repr

/-- The error in words, for a terminal: arguments and options are set off by a colour. -/
def UsageError.message : UsageError → String
  | .unexpectedArgument argument =>
    "unexpected argument '" ++ Terminal.highlight argument ++ "' found"
  | .unrecognizedSubcommand word => "unrecognized subcommand '" ++ Terminal.highlight word ++ "'"
  | .unexpectedValue value option =>
    "unexpected value '" ++ Terminal.highlight value ++ "' for '" ++ Terminal.highlight option ++
      "' found; no more were expected"
  | .missingValue setting =>
    "a value is required for '" ++ Terminal.highlight setting.text ++ "' but none was supplied"
  | .repeated option =>
    "the argument '" ++ Terminal.highlight option ++ "' cannot be used multiple times"
  | .invalidValue setting value error =>
    "invalid value '" ++ Terminal.highlight value ++ "' for '" ++
      Terminal.highlight setting.text ++ "': " ++ error.message

/-- What is printed about the error where there is no terminal. A control sequence in an argument is
not shown, and an unfinished one can take some of the words behind it along. -/
def UsageError.report (e : UsageError) : String :=
  Terminal.plain ("error: " ++ e.message ++ "\n\nFor more information, try '" ++
    Terminal.highlight "--help" ++ "'.")

/-! ## Values -/

/-- Sets a file name, which must not be empty. -/
def fileName (s : Setting) (value : String) : Except UsageError String :=
  if value.isEmpty then .error (.missingValue s) else .ok value

/-- The options with a value for one setting. A repeated setting is refused before its value is
read. -/
def RunOptions.assign (o : RunOptions) (s : Setting) (value : String) :
    Except UsageError RunOptions := do
  if o.has s then throw (.repeated s.text)
  match s with
  | .image => return { o with image := ← fileName s value }
  | .config => return { o with config := ← fileName s value }
  | .origin =>
    let n ← (readNumber value.toList).mapError fun e => .invalidValue s value (.number e)
    return { o with origin := n }
  | .maxSteps =>
    let n ← (Numeral.read 10 (UInt64.size - 1) value.toList).mapError fun e =>
      .invalidValue s value (.numeral e)
    return { o with maxSteps := UInt64.ofNat n }
  | .dump =>
    let r ← (readRange value.toList).mapError fun e => .invalidValue s value (.range e)
    return { o with dump := r }

/-! ## Arguments one by one -/

/-- The form of an argument. -/
inductive Argument where
  /-- Two dashes: no options follow. -/
  | escape
  /-- A name behind two dashes, with the value joined to it. -/
  | long (name : String) (value : Option String)
  /-- A letter behind one dash, with what is joined to it. -/
  | short (letter : Char) (joined : String)
  | word (word : String)
deriving DecidableEq, Repr

/-- The form of an argument. A single dash is a word. -/
def Argument.ofString (s : String) : Argument :=
  match s.toList with
  | ['-', '-'] => .escape
  | '-' :: '-' :: cs =>
    let name := cs.takeWhile (· != '=')
    .long (String.ofList name) <|
      if cs.contains '=' then some (String.ofList (cs.drop (name.length + 1))) else none
  | '-' :: c :: cs => .short c (String.ofList cs)
  | _ => .word s

/-- The value joined to a letter: an equals sign in front of it does not count. -/
def joinedValue (joined : String) : Option String :=
  match joined.toList with
  | [] => none
  | '=' :: cs => some (String.ofList cs)
  | _ => some joined

/-- What was read of the options of `run`: the options complete so far, and the last setting if its
value is missing or not yet checked. -/
structure Progress where
  options : RunOptions := {}
  pending : Option (Setting × Option String) := none

namespace Progress

/-- Checks the value that is still to be checked. -/
def settle (p : Progress) : Except UsageError RunOptions :=
  match p.pending with
  | none => .ok p.options
  | some (s, none) => .error (.missingValue s)
  | some (s, some value) => p.options.assign s value

/-- A setting, with its value if one is joined to it. -/
def setting (p : Progress) (s : Setting) (value : Option String) :
    Except UsageError Progress := do
  let options ← p.settle
  match value with
  | none => return { options, pending := some (s, none) }
  | some value => return { options := ← options.assign s value }

/-- The switch for tracing. -/
def trace (p : Progress) : Except UsageError Progress := do
  let options ← p.settle
  if options.trace then throw (.repeated "--trace")
  return { options := { options with trace := true } }

/-- An argument that is no option: the value of the last setting, if that still lacks one. -/
def word (p : Progress) (word : String) : Except UsageError Progress :=
  match p.pending with
  | some (s, none) => .ok { p with pending := some (s, some word) }
  | _ => .error (.unexpectedArgument word)

end Progress

/-- Reads the arguments behind `run`. -/
def readRun (p : Progress) : List String → Except UsageError Request
  | [] => return .run (← p.settle)
  | argument :: rest =>
    match Argument.ofString argument with
    | .escape =>
      match rest with
      | [] => return .run (← p.settle)
      | word :: _ => throw (.unexpectedArgument word)
    | .long name value =>
      match Setting.all.find? (·.name == name), name, value with
      | some s, _, _ => do readRun (← p.setting s value) rest
      | none, "trace", none => do readRun (← p.trace) rest
      | none, "help", none => do
        let _ ← p.settle
        return .help
      | none, "trace", some value | none, "help", some value =>
        throw (.unexpectedValue value ("--" ++ name))
      | none, _, _ => throw (.unexpectedArgument ("--" ++ name))
    | .short letter joined =>
      match Setting.all.find? (·.letter? == some letter), letter with
      | some s, _ => do readRun (← p.setting s (joinedValue joined)) rest
      | none, 'h' => do
        let _ ← p.settle
        return .help
      | none, _ => throw (.unexpectedArgument ("-" ++ String.singleton letter))
    | .word w => do readRun (← p.word w) rest

/-- The subcommands. -/
def subcommands : List String :=
  ["run", "help"]

/-- Reads the arguments behind `help`: the path of a subcommand. -/
def readHelp : List String → Except UsageError Request
  | [] => return .help
  | topic :: rest =>
    if subcommands.contains topic then
      match rest with
      | [] => return .help
      | word :: _ => throw (.unrecognizedSubcommand word)
    else throw (.unrecognizedSubcommand topic)

/-- Reads the arguments of the program. -/
def Request.ofArguments : List String → Except UsageError Request
  | [] => return .greeting
  | "run" :: rest => readRun {} rest
  | "help" :: rest => readHelp rest
  | argument :: rest =>
    match Argument.ofString argument with
    | .escape =>
      match rest with
      | [] => return .greeting
      | word :: _ =>
        if subcommands.contains word then throw (.unexpectedArgument word)
        else throw (.unrecognizedSubcommand word)
    | .long name value =>
      match name, value with
      | "help", none => return .help
      | "version", none => return .version
      | "help", some value | "version", some value =>
        throw (.unexpectedValue value ("--" ++ name))
      | _, _ => throw (.unexpectedArgument ("--" ++ name))
    | .short 'h' _ => return .help
    | .short 'V' _ => return .version
    | .short letter _ => throw (.unexpectedArgument ("-" ++ String.singleton letter))
    | .word word => throw (.unrecognizedSubcommand word)

end Accumulator.Command
