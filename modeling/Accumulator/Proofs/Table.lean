import Mathlib.Algebra.Group.Nat.Defs
import Mathlib.Data.Nat.Init
import Mathlib.Logic.Function.Basic
import Accumulator.Machine
import Accumulator.Proofs.Memory

/-!
# The encoding table as a machine of its own

The instruction set a second time, read off the table of high bytes and computed in natural
numbers. A word is split by division into a high byte and an operand `n`; the high byte alone
selects a row of the table (`State.execute`), and every row names the cells it reads as `M[n]` or
`M[M[n]]`. There are no nibbles, no typed instructions and no operand resolvers here, and the
arithmetic is that of the natural numbers modulo `2 ^ 16`. Only the vocabulary of faults, phases
and statuses is that of `Machine`.
-/

namespace Accumulator.Table

/-- One more than the greatest word. -/
def modulus : Nat := 2 ^ 16

/-- The address with a given number. -/
def address (n : Nat) : Address :=
  ⟨.ofNat n⟩

/-- A word rotated left: the bit at position `i` comes from position `i - v` modulo 16. -/
def rotateLeft (acc v : Nat) : Nat :=
  Nat.ofBits fun i : Fin 16 => acc.testBit ((i.val + (16 - v % 16)) % 16)

/-- A word rotated right: the bit at position `i` comes from position `i + v` modulo 16. -/
def rotateRight (acc v : Nat) : Nat :=
  Nat.ofBits fun i : Fin 16 => acc.testBit ((i.val + v) % 16)

/-- The state of the table machine. -/
structure State where
  acc : Nat
  pc : Nat
  flag : Bool
  /-- The words of memory by cell number. -/
  cell : Nat → Nat
  phase : Phase

namespace State

/-! ## The effects that rows share -/

/-- On to the next word. -/
def next (s : State) : State :=
  { s with pc := s.pc + 1, phase := .running }

/-- The accumulator becomes `v`. -/
def load (s : State) (v : Nat) : State :=
  { s.next with acc := v }

/-- The flag becomes the outcome of a test. -/
def test (s : State) (outcome : Bool) : State :=
  { s.next with flag := outcome }

/-- Control goes to cell `target`. -/
def jump (s : State) (target : Nat) : State :=
  { s with pc := target, phase := .running }

/-- Stop on a fault, leaving all else. -/
def fault (s : State) (f : Fault) : State :=
  { s with phase := .faulted f }

/-- Go on with the word at address `a`, or fault on the read. -/
def read (s : State) (a : Nat) (k : Nat → State) : State :=
  if a < 256 then k (s.cell a) else s.fault (.outOfBounds (address a) .read)

/-- The word at address `a` becomes `v`, or the write faults. -/
def write (s : State) (a v : Nat) : State :=
  if a < 256 then { s.next with cell := Function.update s.cell a v }
  else s.fault (.outOfBounds (address a) .write)

/-! ## The table -/

/-- The row of a high byte, with operand byte `n`; any other high byte is no instruction. -/
def execute (s : State) (high n : Nat) : State :=
  match high with
  | 0x00 => { s with phase := .halted }
  | 0x10 => s.load n
  | 0x11 => s.load (s.cell n)
  | 0x12 => s.write n s.acc
  | 0x13 => s.write (s.cell n) s.acc
  | 0x14 => s.read (s.cell n) fun v => s.load v
  | 0x20 => s.load ((s.acc + n) % modulus)
  | 0x21 => s.load ((s.acc + s.cell n) % modulus)
  | 0x24 => s.load ((s.acc + (modulus - n)) % modulus)
  | 0x25 => s.load ((s.acc + (modulus - s.cell n)) % modulus)
  | 0x26 => s.test (s.acc = n)
  | 0x27 => s.test (s.acc = s.cell n)
  | 0x30 => if s.flag then s.jump n else s.next
  | 0x32 => if s.flag then s.next else s.jump n
  | 0x40 => s.jump n
  | 0x50 => s.load (s.acc &&& n)
  | 0x51 => s.load (s.acc &&& s.cell n)
  | 0x52 => s.test (s.acc &&& n = 0)
  | 0x53 => s.test (s.acc &&& s.cell n = 0)
  | 0x54 => s.load (s.acc ||| n)
  | 0x55 => s.load (s.acc ||| s.cell n)
  | 0x56 => s.load (s.acc ^^^ n)
  | 0x57 => s.load (s.acc ^^^ s.cell n)
  | 0x58 => s.load (s.acc * 2 ^ n % modulus)
  | 0x59 => s.load (s.acc * 2 ^ s.cell n % modulus)
  | 0x5A => s.load (s.acc / 2 ^ n)
  | 0x5B => s.load (s.acc / 2 ^ s.cell n)
  | 0x5C => s.load (rotateLeft s.acc n)
  | 0x5D => s.load (rotateLeft s.acc (s.cell n))
  | 0x5E => s.load (rotateRight s.acc n)
  | 0x5F => s.load (rotateRight s.acc (s.cell n))
  | 0x60 => s.write n 0
  | 0x61 => s.write (s.cell n) 0
  | 0x62 => s.read n fun v => s.write n ((v + 1) % modulus)
  | 0x63 => s.read (s.cell n) fun v => s.write (s.cell n) ((v + 1) % modulus)
  | 0x64 => s.read n fun v => s.write n ((v + (modulus - 1)) % modulus)
  | 0x65 => s.read (s.cell n) fun v => s.write (s.cell n) ((v + (modulus - 1)) % modulus)
  | 0xF2 => s.next
  | _ => s.fault (.invalidOpcode (address s.pc) (.ofNat (s.cell s.pc)))

/-- The word that memory holds at the program counter is fetched, split and executed. A machine
that has stopped stays as it is. -/
def step (s : State) : State :=
  match s.phase with
  | .halted | .faulted _ => s
  | .ready | .running =>
    if s.pc < 256 then s.execute (s.cell s.pc / 256) (s.cell s.pc % 256)
    else s.fault (.outOfBounds (address s.pc) .fetch)

/-- What the table machine reports. -/
def status (s : State) : Status :=
  match s.phase with
  | .ready | .running => .continue
  | .halted => .halted
  | .faulted f => .fault f

end State

/-- The registers, the memory and the phase of a machine, in natural numbers. -/
def ofMachine (m : Machine) : State where
  acc := m.registers.acc.toNat
  pc := m.registers.pc.value.toNat
  flag := m.registers.flag
  cell a := (m.memory.word a).toNat
  phase := m.phase

end Accumulator.Table
