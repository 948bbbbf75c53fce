import Accumulator.Proofs.Effect

/-!
# What a step can do

`Machine.Executes` says which instruction a machine is about to complete and `Machine.Blocked`
which fault it is about to meet; every machine is in one of the two (`executes_or_blocked`).
`next_cases` is the inversion of a step: it retires an instruction and goes on, retires a halt and
stops, or faults and changes nothing but the phase. All later facts about steps are read off it.
-/

namespace Accumulator

variable {m m' : Machine} {i : Instruction} {f : Fault}

/-- The only instruction that stops control is the halt. -/
theorem Instruction.flow_eq_halt_iff {r : Registers} : i.flow r = .halt ↔ i = .halt := by
  cases i with
  | halt => simp [flow]
  | breq _ | brne _ => cases h : r.flag <;> simp [flow, h]
  | load _ | store _ | add _ | sub _ | cmp _ | bitwise _ _ | bit _ | zero _ | inc _ | dec _
  | noop _ | jump _ => simp [flow]

namespace Machine

/-- The word at the program counter. -/
def word (m : Machine) : UInt16 :=
  m.memory.word m.registers.pc.value.toNat

/-- The machine is about to complete an instruction: its program counter names a cell, the word
there is the instruction's and no pointer is wild. -/
structure Executes (m : Machine) (i : Instruction) : Prop where
  inside : m.registers.pc.value.toNat < memoryWords
  decodes : Instruction.decode? m.word = some i
  tame : i.wild? m.memory = none

/-- The machine is about to meet a fault. -/
inductive Blocked (m : Machine) : Fault → Prop
  /-- The program counter is outside memory. -/
  | fetch : memoryWords ≤ m.registers.pc.value.toNat →
      Blocked m (.outOfBounds m.registers.pc .fetch)
  /-- The word at the program counter is no instruction. -/
  | opcode : m.registers.pc.value.toNat < memoryWords → Instruction.decode? m.word = none →
      Blocked m (.invalidOpcode m.registers.pc m.word)
  /-- The instruction goes through a pointer cell that holds an address outside memory. -/
  | pointer {i : Instruction} {p : UInt8} {access : Access} :
      m.registers.pc.value.toNat < memoryWords → Instruction.decode? m.word = some i →
      i.pointer? = some (p, access) → memoryWords ≤ (m.memory.word p.toNat).toNat →
      Blocked m (.outOfBounds ⟨m.memory.word p.toNat⟩ access)

/-! ## From a machine to its next instruction -/

/-- A machine executes an instruction or is about to fault. `Blocked.unique` tells which fault. -/
theorem executes_or_blocked (m : Machine) : (∃ i, m.Executes i) ∨ ∃ f, m.Blocked f := by
  by_cases inside : m.registers.pc.value.toNat < memoryWords
  · cases decodes : Instruction.decode? m.word with
    | none => exact .inr ⟨_, .opcode inside decodes⟩
    | some i =>
      cases tame : i.wild? m.memory with
      | none => exact .inl ⟨i, inside, decodes, tame⟩
      | some f =>
        obtain ⟨p, access, hp, wild, rfl⟩ := Instruction.wild?_eq_some_iff.1 tame
        exact .inr ⟨_, .pointer inside decodes hp wild⟩
  · exact .inr ⟨_, .fetch (Nat.not_lt.1 inside)⟩

/-- The instruction of a machine is what the word at its program counter decodes to. -/
theorem instruction_of_decode (inside : m.registers.pc.value.toNat < memoryWords)
    (decodes : Instruction.decode? m.word = some i) : m.instruction = .ok i := by
  simp only [instruction, fetch, Memory.read_of_lt inside, bind, Except.bind]
  rw [show m.memory.word m.registers.pc.value.toNat = m.word from rfl, decodes]
  rfl

/-- The machine after a completed instruction, its phase not yet set. -/
def retired (m : Machine) (i : Instruction) : Machine :=
  m.retire i (i.done m.registers m.memory)

/-- An instruction that the machine executes completes. -/
theorem Executes.advance (h : m.Executes i) :
    m.advance = .ok (i.flow m.registers, m.retired i) := by
  simp only [Machine.advance, instruction_of_decode h.inside h.decodes, bind, Except.bind,
    Instruction.effect_eq, h.tame]
  rfl

/-- A fault that the machine is about to meet is what it meets. -/
theorem Blocked.advance (h : m.Blocked f) : m.advance = .error f := by
  cases h with
  | fetch outside =>
    simp only [Machine.advance, instruction, Machine.fetch, Memory.read_of_le outside, bind,
      Except.bind]
  | opcode inside decodes =>
    simp only [Machine.advance, instruction, Machine.fetch, Memory.read_of_lt inside, bind,
      Except.bind]
    rw [show m.memory.word m.registers.pc.value.toNat = m.word from rfl, decodes]
    rfl
  | pointer inside decodes hp wild =>
    have := Instruction.wild?_eq_some_iff.2 ⟨_, _, hp, wild, rfl⟩
    simp only [Machine.advance, instruction_of_decode inside decodes, bind, Except.bind,
      Instruction.effect_eq, this]

/-- A machine is blocked by one fault at most. -/
theorem Blocked.unique {g : Fault} (h : m.Blocked f) (hg : m.Blocked g) : f = g := by
  cases h.advance.symm.trans hg.advance
  rfl

/-! ## Steps -/

/-- The step of a machine that has stopped reports the status again and changes nothing. -/
theorem step_of_terminal (h : m.phase.isTerminal = true) : m.step = (m.status, m) := by
  cases hp : m.phase with
  | ready | running => simp [hp, Phase.isTerminal] at h
  | halted | faulted f => simp only [step, status, hp]

/-- What a step is made of, without the test for a machine that has stopped. -/
theorem step_of_live (h : m.phase.isTerminal = false) :
    m.step = match m.advance with
      | .ok (.halt, m') => (.halted, { m' with phase := .halted })
      | .ok (_, m') => (.continue, { m' with phase := .running })
      | .error f => (.fault f, { m with phase := .faulted f }) := by
  cases hp : m.phase with
  | ready | running =>
    rcases advance : m.advance with f | ⟨_ | _ | _, m'⟩ <;> simp only [step, hp, advance]
  | halted | faulted f => simp [hp, Phase.isTerminal] at h

/-- The machine that a step leaves. -/
def next (m : Machine) : Machine :=
  m.step.2

/-- A machine that has stopped stays as it is. -/
theorem next_of_terminal (h : m.phase.isTerminal = true) : m.next = m := by
  rw [next, step_of_terminal h]

/-- A halt changes the phase and is counted; the program counter stays at it. -/
theorem next_of_halt (live : m.phase.isTerminal = false) (h : m.Executes .halt) :
    m.next = { m with phase := .halted, statistics := m.statistics.record .halt false } := by
  rw [next, step_of_live live, h.advance]
  rfl

/-- A fault changes the phase and nothing else. -/
theorem next_of_blocked (live : m.phase.isTerminal = false) (h : m.Blocked f) :
    m.next = { m with phase := .faulted f } := by
  rw [next, step_of_live live, h.advance]

/-- Any other instruction retires, and the machine runs. -/
theorem next_of_executes (live : m.phase.isTerminal = false) (h : m.Executes i)
    (hi : i ≠ .halt) : m.next = { m.retired i with phase := .running } := by
  rw [next, step_of_live live, h.advance]
  cases hfl : i.flow m.registers with
  | halt => exact absurd (Instruction.flow_eq_halt_iff.1 hfl) hi
  | next | jump t => rfl

/-- A halt differs from other instructions in the phase alone that it leaves. -/
theorem next_eq_retired (live : m.phase.isTerminal = false) (h : m.Executes i) :
    m.next = { m.retired i with phase := if i = .halt then .halted else .running } := by
  by_cases halt : i = .halt
  · subst halt
    rw [next_of_halt live h]
    rfl
  · rw [next_of_executes live h halt, if_neg halt]

/-- The three ways in which a step of a machine that has not stopped can end. -/
inductive Stepped (m : Machine) : Machine → Prop
  /-- An instruction other than the halt retires. -/
  | next {i : Instruction} : m.Executes i → i ≠ .halt →
      Stepped m { m.retired i with phase := .running }
  /-- A halt retires: the registers and memory stay. -/
  | halt : m.Executes .halt →
      Stepped m { m with
        phase := .halted
        statistics := m.statistics.record .halt false }
  /-- A fault changes the phase alone. -/
  | fault {f : Fault} : m.Blocked f → Stepped m { m with phase := .faulted f }

/-- **Inversion of a step.** -/
theorem next_cases (live : m.phase.isTerminal = false) : Stepped m m.next := by
  obtain ⟨i, hi⟩ | ⟨f, hf⟩ := m.executes_or_blocked
  · by_cases halt : i = .halt
    · subst halt
      rw [next_of_halt live hi]
      exact .halt hi
    · rw [next_of_executes live hi halt]
      exact .next hi halt
  · rw [next_of_blocked live hf]
    exact .fault hf

/-- A machine that has not stopped goes on. -/
theorem status_of_live (live : m.phase.isTerminal = false) : m.status = .continue := by
  cases hp : m.phase with
  | ready | running => simp only [status, hp]
  | halted | faulted f => simp [hp, Phase.isTerminal] at live

/-- A status is terminal just in case the phase it is read off is. -/
theorem isTerminal_status (m : Machine) : m.status.isTerminal = m.phase.isTerminal := by
  cases hp : m.phase <;> simp only [status, hp] <;> rfl

/-- A step reports the status of the machine it leaves. -/
theorem step_eq (m : Machine) : m.step = (m.next.status, m.next) := by
  rw [next, Prod.ext_iff]
  refine ⟨?_, rfl⟩
  cases live : m.phase.isTerminal with
  | true => rw [step_of_terminal live]
  | false =>
    rw [step_of_live live]
    rcases m.advance with f | ⟨_ | _ | _, m'⟩ <;> rfl

end Machine
end Accumulator
