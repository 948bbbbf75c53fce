import Accumulator.Config
import Accumulator.Fault
import Accumulator.Instruction

/-!
# The log

What a run reports besides its result. An `Event` is a value; which events are written is the
business of a filter, so logging cannot change what a run does. An event has a level, a source and
named fields, and is written on one line: level, message, and the fields as `name=value`.
-/

namespace Accumulator

/-- How much an event matters, `error` most; `off` is the threshold that no event reaches. -/
inductive LogLevel where
  | off
  | error
  | warn
  | info
  | debug
  | trace
deriving DecidableEq, Repr

namespace LogLevel

/-- The rank of a level: a threshold lets an event through whose rank is not above its own. -/
def rank : LogLevel → Nat
  | .off => 0
  | .error => 1
  | .warn => 2
  | .info => 3
  | .debug => 4
  | .trace => 5

/-- All levels, by rank. -/
def all : List LogLevel :=
  [.off, .error, .warn, .info, .debug, .trace]

/-- The level in small letters. -/
def name : LogLevel → String
  | .off => "off"
  | .error => "error"
  | .warn => "warn"
  | .info => "info"
  | .debug => "debug"
  | .trace => "trace"

end LogLevel

/-- Something worth a line on the log. -/
inductive Event where
  /-- The settings of the run are settled. -/
  | configured (config : Config)
  /-- An image was placed in memory. -/
  | imageLoaded (origin : Address) (words : Nat)
  /-- An instruction was decoded and is about to be executed. -/
  | execute (pc : Address) (word : UInt16) (instruction : Instruction) (acc : UInt16)
  /-- A machine halted. -/
  | halted (pc : Address) (steps : UInt64)
  /-- A machine faulted. -/
  | faulted (fault : Fault) (steps : UInt64)
  /-- A run reached its halt. -/
  | runComplete (steps : UInt64) (acc : UInt16) (pc : Address)
  /-- A run ended in a fault. -/
  | runFaulted (failure : Failure) (pc : Address)
  /-- A run ended for another reason; `steps` counts all that the machine retired. -/
  | runStopped (failure : Failure) (steps : UInt64)
deriving DecidableEq, Repr

namespace Event

def level : Event → LogLevel
  | .execute .. => .trace
  | .configured _ | .imageLoaded .. | .halted .. => .debug
  | .runComplete .. => .info
  | .faulted .. | .runFaulted .. | .runStopped .. => .warn

/-- The part of the program that an event comes from, as filters name it. -/
def source : Event → String
  | .configured _ => "accsim"
  | .imageLoaded .. => "accsim_core::core::machine"
  | .execute .. | .halted .. | .faulted .. => "accsim_core::core::machine::execution"
  | .runComplete .. | .runFaulted .. | .runStopped .. => "accsim_core::sim::simulator"

def message : Event → String
  | .configured _ => "configuration"
  | .imageLoaded .. => "image loaded"
  | .execute .. => "execute"
  | .halted .. => "halted"
  | .faulted .. => "machine faulted"
  | .runComplete .. => "run complete"
  | .runFaulted .. => "run faulted"
  | .runStopped .. => "run stopped"

/-- The fields in the order in which they are written. -/
def fields : Event → List (String × String)
  | .configured config => [("config", config.text)]
  | .imageLoaded origin words =>
    [("origin", toString origin.value.toNat), ("words", toString words)]
  | .execute pc word instruction acc =>
    [("pc", toString pc.value.toNat), ("word", toString word.toNat), ("inst", instruction.text),
      ("acc", toString acc.toNat)]
  | .halted pc steps => [("pc", toString pc.value.toNat), ("steps", toString steps.toNat)]
  | .faulted fault steps => [("fault", fault.message), ("steps", toString steps.toNat)]
  | .runComplete steps acc pc =>
    [("steps", toString steps.toNat), ("acc", toString acc.toNat),
      ("pc", toString pc.value.toNat)]
  | .runFaulted failure pc => [("err", failure.message), ("pc", toString pc.value.toNat)]
  | .runStopped failure steps => [("err", failure.message), ("steps", toString steps.toNat)]

/-- The line that the event is written on. -/
def line (e : Event) : String :=
  e.level.name.toUpper ++ " " ++ e.message ++
    String.join (e.fields.map fun (name, value) => " " ++ name ++ "=" ++ value)

end Event
end Accumulator
