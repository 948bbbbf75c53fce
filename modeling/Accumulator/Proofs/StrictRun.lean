import Accumulator.Proofs.Lifecycle
import Accumulator.Proofs.Violations

/-!
# Steps and runs without violations

A step is written down once more with strict accesses to memory and strict counters, as it is
executed: the fetch, the operands, the effect and the record of what retired. Up to the effect there
is no violation in any state of the machine. The record needs balanced counters and room in the step
counter, and the difference that a run up to the halt answers with needs a step counter that has not
come round; so for a run both follow from the law of a machine's life, which every step keeps.
-/

namespace Accumulator

open StrictExcept

variable {r : Registers} {m : Memory}

/-! ## Operands -/

/-- The address held by a pointer cell. -/
def Memory.strictPointer (m : Memory) (p : UInt8) : StrictExcept Fault Address :=
  return ⟨← m.strictRead (.ofByte p) .read⟩

/-- The value of the operand. -/
def LoadOperand.strictValue (m : Memory) : LoadOperand → StrictExcept Fault UInt16
  | .immediate v => return v.toUInt16
  | .direct c => m.strictRead (.ofByte c) .read
  | .indirect p => do m.strictRead (← m.strictPointer p) .read

/-- The value of the operand. -/
def Operand.strictValue (m : Memory) : Operand → StrictExcept Fault UInt16
  | .immediate v => return v.toUInt16
  | .direct c => m.strictRead (.ofByte c) .read

/-- The address of the target. -/
def Target.strictAddress (m : Memory) : Target → StrictExcept Fault Address
  | .direct c => return .ofByte c
  | .indirect p => m.strictPointer p

/-- A pointer is read without a violation. -/
theorem Memory.strictPointer_eq (p : UInt8) : m.strictPointer p = .of (m.pointer p) := by
  rw [strictPointer, strictRead_eq]
  exact of_bind _ _

/-- The operand of a load is read without a violation; a wild pointer in it is a fault. -/
theorem LoadOperand.strictValue_eq (s : LoadOperand) : s.strictValue m = .of (s.value m) := by
  cases s with
  | immediate v => rfl
  | direct c => exact m.strictRead_eq _ _
  | indirect p =>
    simp only [strictValue, value, Memory.strictPointer_eq, Memory.strictRead_eq, of_bind]

theorem Operand.strictValue_eq (o : Operand) : o.strictValue m = .of (o.value m) := by
  cases o with
  | immediate v => rfl
  | direct c => exact m.strictRead_eq _ _

theorem Target.strictAddress_eq (t : Target) : t.strictAddress m = .of (t.address m) := by
  cases t with
  | direct c => rfl
  | indirect p => exact Memory.strictPointer_eq p

/-! ## Execution -/

/-- Replace the contents of the target by a function of them. -/
def Target.strictUpdate (t : Target) (r : Registers) (m : Memory) (f : UInt16 → UInt16) :
    StrictExcept Fault Effect := do
  let a ← t.strictAddress m
  let word ← m.strictRead a .read
  return ⟨.next, r, ← m.strictWrite a (f word)⟩

/-- What the instruction does to registers and memory. Arithmetic on words wraps around, and a
shift takes any amount: neither has a domain to leave. -/
def Instruction.strictEffect (r : Registers) (m : Memory) :
    Instruction → StrictExcept Fault Effect
  | .halt => return ⟨.halt, r, m⟩
  | .load s => do
    let v ← s.strictValue m
    return ⟨.next, { r with acc := v }, m⟩
  | .store t => do
    let a ← t.strictAddress m
    return ⟨.next, r, ← m.strictWrite a r.acc⟩
  | .add o => do
    let v ← o.strictValue m
    return ⟨.next, { r with acc := r.acc + v }, m⟩
  | .sub o => do
    let v ← o.strictValue m
    return ⟨.next, { r with acc := r.acc - v }, m⟩
  | .cmp o => do
    let v ← o.strictValue m
    return ⟨.next, { r with flag := r.acc == v }, m⟩
  | .bitwise op o => do
    let v ← o.strictValue m
    return ⟨.next, { r with acc := op.apply r.acc v }, m⟩
  | .bit o => do
    let v ← o.strictValue m
    return ⟨.next, { r with flag := r.acc &&& v == 0 }, m⟩
  | .zero t => do
    let a ← t.strictAddress m
    return ⟨.next, r, ← m.strictWrite a 0⟩
  | .inc t => t.strictUpdate r m (· + 1)
  | .dec t => t.strictUpdate r m (· - 1)
  | .noop _ => return ⟨.next, r, m⟩
  | .breq t => return ⟨if r.flag then .jump (.ofByte t) else .next, r, m⟩
  | .brne t => return ⟨if r.flag then .next else .jump (.ofByte t), r, m⟩
  | .jump t => return ⟨.jump (.ofByte t), r, m⟩

/-- A target is updated without a violation, whatever the function does to its word. -/
theorem Target.strictUpdate_eq (t : Target) (f : UInt16 → UInt16) :
    t.strictUpdate r m f = .of (t.update r m f) := by
  simp only [strictUpdate, update, strictAddress_eq, Memory.strictRead_eq, Memory.strictWrite_eq,
    pure_eq_of, of_bind]
  rfl

/-- **No instruction has a violation**, in whatever memory it is executed. -/
theorem Instruction.strictEffect_eq (i : Instruction) :
    i.strictEffect r m = .of (i.effect r m) := by
  cases i with
  | halt | noop _ | breq _ | brne _ | jump _ => rfl
  | load s =>
    rw [strictEffect, LoadOperand.strictValue_eq]
    exact of_bind _ _
  | add o | sub o | cmp o | bitwise _ o | bit o =>
    rw [strictEffect, Operand.strictValue_eq]
    exact of_bind _ _
  | store t | zero t =>
    simp only [strictEffect, effect, Target.strictAddress_eq, Memory.strictWrite_eq, pure_eq_of,
      of_bind]
    rfl
  | inc t | dec t => exact Target.strictUpdate_eq t _

namespace Machine

variable {m : Machine} {n : Nat}

/-! ## One step -/

/-- The instruction at the program counter. -/
def strictInstruction (m : Machine) : StrictExcept Fault Instruction := do
  let word ← m.memory.strictRead m.registers.pc .fetch
  match Instruction.decode? word with
  | some i => return i
  | none => throw (.invalidOpcode m.registers.pc word)

/-- The machine after an instruction took effect. -/
def strictRetire (m : Machine) (i : Instruction) (e : Effect) : Strict Machine :=
  return { m with
    registers := { e.registers with pc := e.flow.target m.registers.pc }
    memory := e.memory
    statistics := ← m.statistics.strictRecord i e.flow.isJump }

/-- Fetches, decodes, executes and retires one instruction. -/
def strictAdvance (m : Machine) : StrictExcept Fault (Flow × Machine) := do
  let i ← m.strictInstruction
  let e ← i.strictEffect m.registers m.memory
  return (e.flow, ← m.strictRetire i e)

/-- Executes one instruction. -/
def strictStep (m : Machine) : Strict (Status × Machine) :=
  match m.phase with
  | .halted => return (.halted, m)
  | .faulted f => return (.fault f, m)
  | .ready | .running => do
    match ← m.strictAdvance.run with
    | .ok (.halt, m') => return (.halted, { m' with phase := .halted })
    | .ok (_, m') => return (.continue, { m' with phase := .running })
    | .error f => return (.fault f, { m with phase := .faulted f })

/-- A fetch and a decoding have no violation. -/
theorem strictInstruction_eq (m : Machine) : m.strictInstruction = .of m.instruction := by
  rw [strictInstruction, Memory.strictRead_eq]
  refine of_bind_eq (fun word => ?_) m.fetch
  cases Instruction.decode? word <;> rfl

/-- An instruction retires without a violation if the counters have room for it. -/
theorem strictRetire_eq (h : m.statistics.Balanced) (room : m.statistics.steps.toNat + 1 < 2 ^ 64)
    (i : Instruction) (e : Effect) : m.strictRetire i e = .ok (m.retire i e) := by
  rw [strictRetire, h.strictRecord_eq room]
  rfl

/-- Nothing is recorded unless an instruction completes. -/
theorem strictAdvance_eq (h : m.statistics.Balanced)
    (room : m.advance.isOk = true → m.statistics.steps.toNat + 1 < 2 ^ 64) :
    m.strictAdvance = .of m.advance := by
  rw [strictAdvance, strictInstruction_eq]
  cases fetched : m.instruction with
  | error f =>
    rw [of_error_bind, advance, fetched]
    rfl
  | ok i =>
    rw [of_ok_bind, Instruction.strictEffect_eq]
    cases executed : i.effect m.registers m.memory with
    | error f =>
      have failed : m.advance = .error f := by
        simp only [advance, fetched, bind, Except.bind, executed]
      rw [of_error_bind, failed]
    | ok e =>
      have done : m.advance = .ok (e.flow, m.retire i e) := by
        simp only [advance, fetched, bind, Except.bind, executed]
        rfl
      rw [of_ok_bind, strictRetire_eq h (room (by rw [done]; rfl)), done]
      rfl

/-- **A step has no violation** if the counters are balanced and have room for what it retires. -/
theorem strictStep_eq (h : m.statistics.Balanced)
    (room : m.statistics.steps.toNat + (if m.retires then 1 else 0) < 2 ^ 64) :
    m.strictStep = .ok m.step := by
  cases live : m.phase.isTerminal with
  | true =>
    rw [step_of_terminal live]
    cases phase : m.phase with
    | ready | running => rw [phase] at live; cases live
    | halted | faulted f => simp only [strictStep, status, phase]; rfl
  | false =>
    have advance : m.strictAdvance = .of m.advance := strictAdvance_eq h fun ok => by
      have retires : m.retires = true := by rw [retires, live, ok]; rfl
      rwa [if_pos retires] at room
    rw [step_of_live live]
    cases phase : m.phase with
    | halted | faulted f => rw [phase] at live; cases live
    | ready | running =>
      simp only [strictStep, phase, advance, run_of]
      rcases m.advance with f | ⟨_ | _ | _, m'⟩ <;> rfl

/-! ## Runs -/

/-- Executes at most `budget` steps. -/
def strictRun : Nat → Machine → Strict (Status × Machine)
  | 0, m => return (m.status, m)
  | budget + 1, m => do
    match ← m.strictStep with
    | (.continue, m') => strictRun budget m'
    | (stopped, m') => return (stopped, m')

/-- Runs and answers with the number of instructions retired, which is the difference of the step
counter before and behind the run. -/
def strictRunUntilHalt (budget : Nat) (m : Machine) :
    Strict (Except Failure UInt64 × Machine) := do
  let (status, m') ← m.strictRun budget
  let steps ← Strict.sub m'.statistics.steps m.statistics.steps
  match status with
  | .halted => return (.ok steps, m')
  | .fault f => return (.error (.fault f), m')
  | .continue => return (.error (.budgetSpent steps), m')

/-- **A run has no violation** if the counters have room for what it retires. -/
theorem Lawful.strictRun_eq (h : m.Lawful)
    (room : m.statistics.steps.toNat + m.retirements n < 2 ^ 64) :
    m.strictRun n = .ok (m.run n) := by
  induction n generalizing m with
  | zero => rfl
  | succ n ih =>
    rw [retirements] at room
    have first : m.statistics.steps.toNat + (if m.retires then 1 else 0) < 2 ^ 64 := by omega
    have rest : m.next.strictRun n = .ok (m.next.run n) := by
      refine ih (h.next first) ?_
      have steps := toNat_steps_after (m := m) (n := 1) first
      change m.next.statistics.steps.toNat = m.statistics.steps.toNat + _ at steps
      rw [steps, retirements, retirements]
      omega
    rw [strictRun, strictStep_eq h.balanced first, run, step_eq]
    cases status : m.next.status with
    | «continue» => exact rest
    | halted | fault f => rfl

/-- The difference is not negative: the step counter does not come round. -/
theorem Lawful.strictRunUntilHalt_eq (h : m.Lawful)
    (room : m.statistics.steps.toNat + m.retirements n < 2 ^ 64) :
    m.strictRunUntilHalt n = .ok (m.runUntilHalt n) := by
  have forward : m.statistics.steps ≤ (m.run n).2.statistics.steps := by
    rw [UInt64.le_iff_toNat_le, run_eq, toNat_steps_after room]
    exact Nat.le_add_right _ _
  have difference := Strict.sub_eq_ok_iff.2 ⟨forward, rfl⟩
  simp only [strictRunUntilHalt, h.strictRun_eq room, runUntilHalt, bind, Except.bind, difference]
  cases (m.run n).1 <;> rfl

end Machine
end Accumulator
