import Accumulator.Instruction.Encoding
import Accumulator.Machine

/-!
# One step

A step fetches the word at the program counter, decodes it, executes the instruction and retires it.
`Instruction.effect` says what an instruction does to registers and memory: every read comes before
the one write, and whatever can fault does so before anything has changed. So an instruction either
completes or leaves the machine as it was, with the program counter on it.
-/

namespace Accumulator

/-! ## Operands -/

/-- The address held by a pointer cell. -/
def Memory.pointer (m : Memory) (cell : UInt8) : Except Fault Address :=
  return ⟨← m.read (.ofByte cell) .read⟩

/-- The value of the operand. -/
def LoadOperand.value (m : Memory) : LoadOperand → Except Fault UInt16
  | .immediate v => return v.toUInt16
  | .direct c => m.read (.ofByte c) .read
  | .indirect p => do m.read (← m.pointer p) .read

/-- The value of the operand. -/
def Operand.value (m : Memory) : Operand → Except Fault UInt16
  | .immediate v => return v.toUInt16
  | .direct c => m.read (.ofByte c) .read

/-- The address of the target. -/
def Target.address (m : Memory) : Target → Except Fault Address
  | .direct c => return .ofByte c
  | .indirect p => m.pointer p

/-! ## Execution -/

/-- Where control goes behind an instruction. -/
inductive Flow where
  /-- To the next word. -/
  | next
  | jump (target : Address)
  /-- Nowhere: the program counter stays. -/
  | halt
deriving DecidableEq, Repr

/-- The program counter behind an instruction at `pc`. -/
def Flow.target (pc : Address) : Flow → Address
  | .next => pc.next
  | .jump target => target
  | .halt => pc

/-- Did the instruction transfer control? -/
def Flow.isJump : Flow → Bool
  | .jump _ => true
  | .next | .halt => false

/-- What an instruction did: where control goes, and the registers and the memory it leaves. The
program counter among the registers is still that of the instruction. -/
structure Effect where
  flow : Flow
  registers : Registers
  memory : Memory

/-- Replace the contents of the target by a function of them. -/
def Target.update (t : Target) (r : Registers) (m : Memory) (f : UInt16 → UInt16) :
    Except Fault Effect := do
  let a ← t.address m
  let word ← m.read a .read
  return ⟨.next, r, ← m.write a (f word)⟩

/-- What the instruction does to registers and memory. -/
def Instruction.effect (r : Registers) (m : Memory) : Instruction → Except Fault Effect
  | .halt => return ⟨.halt, r, m⟩
  | .load s => do
    let v ← s.value m
    return ⟨.next, { r with acc := v }, m⟩
  | .store t => do
    let a ← t.address m
    return ⟨.next, r, ← m.write a r.acc⟩
  | .add o => do
    let v ← o.value m
    return ⟨.next, { r with acc := r.acc + v }, m⟩
  | .sub o => do
    let v ← o.value m
    return ⟨.next, { r with acc := r.acc - v }, m⟩
  | .cmp o => do
    let v ← o.value m
    return ⟨.next, { r with flag := r.acc == v }, m⟩
  | .bitwise op o => do
    let v ← o.value m
    return ⟨.next, { r with acc := op.apply r.acc v }, m⟩
  | .bit o => do
    let v ← o.value m
    return ⟨.next, { r with flag := r.acc &&& v == 0 }, m⟩
  | .zero t => do
    let a ← t.address m
    return ⟨.next, r, ← m.write a 0⟩
  | .inc t => t.update r m (· + 1)
  | .dec t => t.update r m (· - 1)
  | .noop _ => return ⟨.next, r, m⟩
  | .breq t => return ⟨if r.flag then .jump (.ofByte t) else .next, r, m⟩
  | .brne t => return ⟨if r.flag then .next else .jump (.ofByte t), r, m⟩
  | .jump t => return ⟨.jump (.ofByte t), r, m⟩

namespace Machine

/-- The word at the program counter. -/
def fetch (m : Machine) : Except Fault UInt16 :=
  m.memory.read m.registers.pc .fetch

/-- The instruction at the program counter. -/
def instruction (m : Machine) : Except Fault Instruction := do
  let word ← m.fetch
  match Instruction.decode? word with
  | some i => return i
  | none => throw (.invalidOpcode m.registers.pc word)

/-- The machine after an instruction took effect: the program counter moves on and the instruction
is counted. -/
def retire (m : Machine) (i : Instruction) (e : Effect) : Machine :=
  { m with
    registers := { e.registers with pc := e.flow.target m.registers.pc }
    memory := e.memory
    statistics := m.statistics.record i e.flow.isJump }

/-- Fetches, decodes, executes and retires one instruction. -/
def advance (m : Machine) : Except Fault (Flow × Machine) := do
  let i ← m.instruction
  let e ← i.effect m.registers m.memory
  return (e.flow, m.retire i e)

/-- Executes one instruction. A machine that has stopped reports its status again and stays as it
is. -/
def step (m : Machine) : Status × Machine :=
  match m.phase with
  | .halted => (.halted, m)
  | .faulted f => (.fault f, m)
  | .ready | .running =>
    match m.advance with
    | .ok (.halt, m') => (.halted, { m' with phase := .halted })
    | .ok (_, m') => (.continue, { m' with phase := .running })
    | .error f => (.fault f, { m with phase := .faulted f })

end Machine
end Accumulator
