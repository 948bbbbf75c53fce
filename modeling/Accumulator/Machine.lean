import Accumulator.Memory
import Accumulator.Registers
import Accumulator.Statistics

/-!
# The machine

A machine is its registers, its memory, the phase of its life, the statistics of what it retired and
a switch for tracing. A machine is made `ready`, is `running` from its first instruction on and ends
`halted` or `faulted`; from there only `reset` brings it back. Setters and loads change nothing but
what they name, in every phase.
-/

namespace Accumulator

/-- The phase of a machine's life. -/
inductive Phase where
  /-- New or reset: no instruction executed yet. -/
  | ready
  /-- An instruction was executed and the machine has not stopped. -/
  | running
  /-- A halt instruction was executed. -/
  | halted
  /-- A step failed. -/
  | faulted (fault : Fault)
deriving DecidableEq, Repr

/-- Has the machine stopped for good? -/
def Phase.isTerminal : Phase → Bool
  | .halted | .faulted _ => true
  | .ready | .running => false

/-- What a step or a run reports. -/
inductive Status where
  /-- The machine can go on. -/
  | continue
  | halted
  | fault (fault : Fault)
deriving DecidableEq, Repr

/-- Will no further instruction execute? -/
def Status.isTerminal : Status → Bool
  | .continue => false
  | .halted | .fault _ => true

/-- A processor with one accumulator and its memory. -/
structure Machine where
  registers : Registers := {}
  memory : Memory := .zeros
  phase : Phase := .ready
  statistics : Statistics := {}
  /-- Is every instruction executed put on the log? -/
  tracing : Bool := false
deriving DecidableEq, Repr

namespace Machine

/-- A new machine: zeros everywhere, ready to run from `$00`. -/
def new : Machine := {}

/-- The machine as it was made; only the trace switch is kept. -/
def reset (m : Machine) : Machine :=
  { new with tracing := m.tracing }

/-- The status that a step would report if it executed nothing. -/
def status (m : Machine) : Status :=
  match m.phase with
  | .ready | .running => .continue
  | .halted => .halted
  | .faulted f => .fault f

/-- The machine with an image placed in its memory. -/
def load (m : Machine) (image : List UInt16) (origin : Address) : Except Failure Machine :=
  return { m with memory := ← m.memory.load image origin }

def setAccumulator (m : Machine) (word : UInt16) : Machine :=
  { m with registers := { m.registers with acc := word } }

/-- The machine with another program counter; its range is checked by the next fetch. -/
def setPc (m : Machine) (pc : Address) : Machine :=
  { m with registers := { m.registers with pc } }

def setTracing (m : Machine) (tracing : Bool) : Machine :=
  { m with tracing }

/-- One word of memory. -/
def read (m : Machine) (a : Address) : Except Fault UInt16 :=
  m.memory.read a .read

/-- The machine with one word of memory replaced. -/
def write (m : Machine) (a : Address) (word : UInt16) : Except Fault Machine :=
  return { m with memory := ← m.memory.write a word }

end Machine
end Accumulator
