import Accumulator.Command.Session

/-!
# The executable

The outer layer of the command line: it reads the files that the options name and the environment
variable of the log filter, and prints what `Command.execute` answers.
-/

namespace Accumulator.Command

/-- The files that a request reads. -/
def Request.paths : Request → List String
  | .run o => o.image.toList ++ o.config.toList
  | _ => []

/-- The contents of a file, or why it cannot be read. -/
def readFile (path : String) : IO (Except String ByteArray) := do
  try
    return .ok (← IO.FS.readBinFile path)
  catch e => return .error (toString e)

/-- The surroundings of the program, with the files that the arguments name. -/
def Environment.ofProcess (arguments : List String) : IO Environment := do
  let paths := match Request.ofArguments arguments with
    | .ok request => request.paths
    | .error _ => []
  let contents ← paths.mapM fun path => return (path, ← readFile path)
  return {
    file := fun path => (contents.lookup path).getD (.error "not read")
    logFilter := ← IO.getEnv "RUST_LOG" }

end Accumulator.Command

/-- Runs the program on its arguments. -/
def main (arguments : List String) : IO UInt32 := do
  let outcome := Accumulator.Command.execute (← Accumulator.Command.Environment.ofProcess arguments)
    arguments
  for line in outcome.errors do
    IO.eprintln line
  IO.print outcome.output
  return outcome.code.toUInt32
