import Accumulator.Command.Arguments
import Accumulator.Config.Reader
import Accumulator.Image
import Accumulator.Image.Fibonacci
import Accumulator.Log.Filter
import Accumulator.Simulator.Log
import Accumulator.Statistics.Report

/-!
# What the program does

`Command.execute` is the whole program as a function: from the arguments, the files and the log
filter that the environment asks for, to the exit code and what is printed. Faults and spent
budgets are reported after everything that was asked for has been shown; settings and images that
cannot be used end the program before anything is.
-/

namespace Accumulator.Command

/-- The surroundings of the program. -/
structure Environment where
  /-- The contents of a file, or why it cannot be read. -/
  file : String → Except String ByteArray
  /-- The log filter asked for, if any. -/
  logFilter : Option String

/-- A line for the error output: an event of the log, or a message that no filter holds back. -/
inductive Notice where
  | event (event : Event)
  | message (text : String)
deriving DecidableEq, Repr

/-- What a run of `accsim run` leaves behind, before the log is filtered. -/
structure Transcript where
  /-- The exit code. -/
  code : Nat
  output : String := ""
  notices : List Notice := []
deriving DecidableEq, Repr

/-- What the program leaves behind. -/
structure Outcome where
  /-- The exit code. -/
  code : Nat
  output : String := ""
  errors : List String := []
deriving DecidableEq, Repr

/-! ## Settings -/

/-- The text in a file, or why there is none. -/
def Environment.text (env : Environment) (path : String) : Except String String := do
  match String.fromUTF8? (← env.file path) with
  | some text => return text
  | none => throw "stream did not contain valid UTF-8"

/-- The settings in a file, or a message. -/
def loadConfig (env : Environment) (path : String) : Except String Config := do
  let text ← (env.text path).mapError fun reason =>
    "Error reading config " ++ path ++ ": " ++ reason
  (Config.parse text).mapError fun e => "Error in config " ++ path ++ ": " ++ e.message

/-- The settings with what the options override. -/
def RunOptions.override (o : RunOptions) (c : Config) : Config where
  traceInstructions := c.traceInstructions || o.trace
  maxSteps := o.maxSteps.getD c.maxSteps
  origin := (o.origin.map Address.mk).getD c.origin

/-- The settings of a run, or a message: those of the file, overridden and then validated. -/
def RunOptions.settings (o : RunOptions) (env : Environment) : Except String Config := do
  let base ← match o.config with
    | none => pure {}
    | some path => loadConfig env path
  let c := o.override base
  c.validate.mapError fun e => "Error: " ++ e.message
  return c

/-! ## Images -/

/-- The image of a run with its name, or a message. -/
def RunOptions.loadImage (o : RunOptions) (env : Environment) :
    Except String (String × List UInt16) :=
  match o.image with
  | none => .ok ("built-in fibonacci", Image.Fibonacci.image)
  | some path =>
    match Image.ofFile (env.file path).toOption with
    | .ok words => .ok (path, words)
    | .error e => .error ("Error loading " ++ path ++ ": " ++ e.message)

/-! ## Output -/

/-- Announces the run. -/
def imageLine (name : String) (words : List UInt16) (c : Config) : String :=
  "[*] Image: " ++ name ++ " (" ++ toString words.length ++ " words) at " ++ c.origin.text ++
    ", budget " ++ toString c.maxSteps.toNat ++ " steps\n"

/-- The rows of a dump that starts at address `start`: eight words behind the address of the
first. -/
def dumpRows (start : Nat) (words : List UInt16) : List String :=
  (List.range ((words.length + 7) / 8)).map fun row =>
    "$" ++ Hex.upper 2 (start + row * 8) ++ ":" ++
      String.join (((words.drop (row * 8)).take 8).map fun w => " " ++ Hex.upper 4 w.toNat) ++ "\n"

/-- A dump as text. -/
def dumpText (start : Nat) (words : List UInt16) : String :=
  String.join (dumpRows start words)

/-- The words of a dump as text, or a message if the range leaves memory. -/
def showDump (m : Memory) (r : WordRange) : Except String String :=
  match m.range r.start.toNat r.stop.toNat with
  | some words => .ok (dumpText r.start.toNat words)
  | none => .error ("[!] Dump range 0x" ++ Hex.lower 1 r.start.toNat ++ "..0x" ++
      Hex.lower 1 r.stop.toNat ++ " is outside memory (" ++ toString memoryWords ++ " words)")

/-- The last line of a run that halted. -/
def haltLine (c : Completion) : String :=
  "[*] Halted at " ++ c.pc.text ++ " after " ++ toString c.steps.toNat ++ " steps\n"

/-- Runs a loaded simulator and shows what it leaves. -/
def runLoaded (s : Simulator) (dump : WordRange) : Transcript :=
  let (result, s') := s.run
  let state := "[*] " ++ s'.machine.registers.text ++ "\n" ++ s'.machine.statistics.report
  let (shown, dumpNotices) := match showDump s'.machine.memory dump with
    | .ok text => (text, [])
    | .error message => ("", [Notice.message message])
  let notices := s.runEvents.map Notice.event ++ dumpNotices
  match result with
  | .ok c => { code := 0, output := state ++ shown ++ haltLine c, notices }
  | .error failure =>
    { code := 1
      output := state ++ shown
      notices := notices ++ [.message "", .message ("[!] " ++ failure.message)] }

/-- Loads an image and runs it under settled settings. -/
def runImage (name : String) (words : List UInt16) (c : Config) (dump : WordRange) : Transcript :=
  let s := Simulator.new c
  let announcement := imageLine name words c
  let (loaded, s') := s.load words
  match loaded with
  | .error failure =>
    { code := 1, output := announcement, notices := [.message ("Error: " ++ failure.message)] }
  | .ok () =>
    let ran := runLoaded s' dump
    { ran with
      output := announcement ++ ran.output
      notices := (s.loadEvents words).map Notice.event ++ ran.notices }

/-- Runs under settled settings. -/
def runConfigured (env : Environment) (o : RunOptions) (c : Config) : Transcript :=
  match o.loadImage env with
  | .error message =>
    { code := 1, notices := [.event (.configured c), .message message] }
  | .ok (name, words) =>
    let ran := runImage name words c (o.dump.getD defaultDump)
    { ran with notices := .event (.configured c) :: ran.notices }

/-! ## The whole program -/

/-- The lines of notices that a filter lets through. -/
def Notice.line? (filter : LogFilter) : Notice → Option String
  | .event e => if filter.admits e then some e.line else none
  | .message text => some text

/-- Runs with the given options. -/
def run (env : Environment) (o : RunOptions) : Outcome :=
  match o.settings env with
  | .error message => { code := 1, errors := [message] }
  | .ok c =>
    let filter := LogFilter.choose c.traceInstructions env.logFilter
    let t := runConfigured env o c
    { code := t.code, output := t.output, errors := t.notices.filterMap (Notice.line? filter) }

/-- What is said when no subcommand is given. -/
def greeting : List String :=
  [ "Accumulator CPU simulator: pass a subcommand",
    "",
    "  accsim run                   Run the built-in Fibonacci program",
    "  accsim run -i <image.hex>    Run a hex image",
    "",
    "  accsim --help  for full options" ]

/-- The help text. -/
def helpText : String :=
  "16-bit accumulator CPU simulator\n\n" ++
  "Usage: accsim run [--image <IMAGE>] [--config <CONFIG>] [--origin <ORIGIN>]\n" ++
  "                  [--max-steps <MAX_STEPS>] [--dump <DUMP>] [--trace]\n"

/-- The program from its arguments and surroundings to what it leaves behind. -/
def execute (env : Environment) (arguments : List String) : Outcome :=
  match Request.ofArguments arguments with
  | .error e => { code := 2, errors := [e.report] }
  | .ok .greeting => { code := 1, errors := greeting }
  | .ok .help => { code := 0, output := helpText }
  | .ok .version => { code := 0, output := "accsim 0.3.0\n" }
  | .ok (.run o) => run env o

end Accumulator.Command
