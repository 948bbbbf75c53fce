import Accumulator.Config
import Accumulator.Machine.Run

/-!
# The simulator

A simulator is a machine with the settings of its runs: the origin of images and the budget of a
run. Loading resets the machine first, so an image always starts from a clean state, whatever ran
before.
-/

namespace Accumulator

/-- The outcome of a run that reached a halt. -/
structure Completion where
  /-- Instructions executed by this run, the halt included. -/
  steps : UInt64
  accumulator : UInt16
  /-- The address of the halt instruction. -/
  pc : Address
deriving DecidableEq, Repr

/-- A machine with the settings of its runs. -/
structure Simulator where
  machine : Machine
  origin : Address
  maxSteps : UInt64
deriving DecidableEq, Repr

namespace Simulator

/-- A simulator with a new machine. -/
def new (c : Config) : Simulator where
  machine := Machine.new.setTracing c.traceInstructions
  origin := c.origin
  maxSteps := c.maxSteps

/-- Resets the machine, places an image at the origin and points the program counter at it. If the
image does not fit the machine stays reset. -/
def load (s : Simulator) (image : List UInt16) : Except Failure Unit × Simulator :=
  let machine := s.machine.reset
  match machine.load image s.origin with
  | .ok loaded => (.ok (), { s with machine := loaded.setPc s.origin })
  | .error failure => (.error failure, { s with machine })

/-- Runs the machine to its halt within the budget. -/
def run (s : Simulator) : Except Failure Completion × Simulator :=
  let (result, machine) := s.machine.runUntilHalt s.maxSteps.toNat
  (result.map fun steps => ⟨steps, machine.registers.acc, machine.registers.pc⟩, { s with machine })

end Simulator
end Accumulator
