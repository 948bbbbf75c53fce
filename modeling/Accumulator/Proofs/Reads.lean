import Accumulator.Proofs.LastWriter

/-!
# A run depends on the cells it reads

`Machine.reads` lists the cells that a run reads: those it fetches instructions from, the direct
operands, the pointer cells and what is read through them, each as memory stands when it is read.
A machine that differs from another outside that list only runs in step with it: in every step it
executes the same instruction, meets the same fault and writes the same word to the same cell
(`AgreesOn.next`, `AgreesOn.written`). What the list is for the whole run is fixed by the first of
the two machines, so the agreement of the initial memories is all that the induction needs
(`AgreesOn.after`).
-/

namespace Accumulator

/-! ## The cells that an instruction reads -/

/-- The cell that an address names, if there is one. -/
def Address.cells (a : Address) : List Nat :=
  if a.value.toNat < memoryWords then [a.value.toNat] else []

/-- The cells read for the value: the operand, or a pointer cell and the cell behind it. -/
def LoadOperand.reads (m : Memory) : LoadOperand → List Nat
  | .immediate _ => []
  | .direct c => [c.toNat]
  | .indirect p => p.toNat :: Address.cells ⟨m.word p.toNat⟩

/-- The cell read for the value. -/
def Operand.reads : Operand → List Nat
  | .immediate _ => []
  | .direct c => [c.toNat]

/-- The cell read for the address: the pointer cell. -/
def Target.reads : Target → List Nat
  | .direct _ => []
  | .indirect p => [p.toNat]

/-- The cells that an instruction reads. An increment or a decrement reads its target, a store or a
zero does not. -/
def Instruction.reads (m : Memory) : Instruction → List Nat
  | .load s => s.reads m
  | .add o | .sub o | .cmp o | .bitwise _ o | .bit o => o.reads
  | .store t | .zero t => t.reads
  | .inc t | .dec t => t.reads ++ (t.place m).cells
  | .halt | .breq _ | .brne _ | .jump _ | .noop _ => []

section
variable {r : Registers} {m m' : Memory} {i : Instruction}

/-- Two memories that agree on the cell of an address agree on its word; outside memory every word
is zero. -/
theorem Memory.word_congr {a : Address} (h : ∀ c ∈ a.cells, m'.word c = m.word c) :
    m'.word a.value.toNat = m.word a.value.toNat := by
  by_cases inside : a.value.toNat < memoryWords
  · rw [Address.cells, if_pos inside] at h
    exact h _ (List.mem_singleton_self _)
  · rw [word_of_le (Nat.not_lt.1 inside), word_of_le (Nat.not_lt.1 inside)]

/-- The operand of a load and its fault depend on the cells that it reads alone. -/
theorem LoadOperand.word_congr {s : LoadOperand} (h : ∀ c ∈ s.reads m, m'.word c = m.word c) :
    s.word m' = s.word m ∧ s.wild? m' = s.wild? m := by
  cases s with
  | immediate v => exact ⟨rfl, rfl⟩
  | direct c => exact ⟨h _ (List.mem_singleton_self _), rfl⟩
  | indirect p =>
    obtain ⟨pointer, behind⟩ := List.forall_mem_cons.1 h
    simp only [word, wild?, pointer]
    exact ⟨Memory.word_congr behind, trivial⟩

/-- An operand depends on the cell that it reads alone. -/
theorem Operand.word_congr {o : Operand} (h : ∀ c ∈ o.reads, m'.word c = m.word c) :
    o.word m' = o.word m := by
  cases o with
  | immediate v => rfl
  | direct c => exact h _ (List.mem_singleton_self _)

/-- The place of a target depends on its pointer cell alone. -/
theorem Target.place_congr {t : Target} (h : ∀ c ∈ t.reads, m'.word c = m.word c) :
    t.place m' = t.place m := by
  cases t with
  | direct c => rfl
  | indirect p => exact congrArg Address.mk (h _ (List.mem_singleton_self _))

/-- Two memories that agree on the cells an instruction reads make no difference to it: neither to
its fault nor to the registers nor to the word it writes. -/
theorem Instruction.parts_congr (h : ∀ c ∈ i.reads m, m'.word c = m.word c) :
    i.wild? m' = i.wild? m ∧ i.registers r m' = i.registers r m ∧
      i.write? r m' = i.write? r m := by
  cases i with
  | load s =>
    obtain ⟨word, wild⟩ := LoadOperand.word_congr h
    exact ⟨wild, by rw [registers, registers, word], rfl⟩
  | add o | sub o | cmp o | bitwise _ o | bit o =>
    exact ⟨rfl, by rw [registers, registers, Operand.word_congr h], rfl⟩
  | store t | zero t =>
    have place := Target.place_congr h
    exact ⟨by rw [wild?, wild?, Target.wild?, Target.wild?, place], rfl,
      by rw [write?, write?, place]⟩
  | inc t | dec t =>
    obtain ⟨pointer, target⟩ := List.forall_mem_append.1 h
    have place := Target.place_congr pointer
    have word := Memory.word_congr target
    exact ⟨by rw [wild?, wild?, Target.wild?, Target.wild?, place], rfl,
      by rw [write?, write?, place, word]⟩
  | halt | breq _ | brne _ | jump _ | noop _ => exact ⟨rfl, rfl, rfl⟩

end

namespace Machine

variable {m m' : Machine} {i : Instruction} {f : Fault} {cells : List Nat} {n : Nat}

/-- The cells that the next step reads: the one it fetches, and those its instruction reads. -/
def stepReads (m : Machine) : List Nat :=
  if m.phase.isTerminal then []
  else m.registers.pc.cells ++
    match m.instruction with
    | .ok i => i.reads m.memory
    | .error _ => []

/-- The cells that a run of at most `budget` steps reads. -/
def reads : Nat → Machine → List Nat
  | 0, _ => []
  | budget + 1, m => m.stepReads ++ reads budget m.next

/-! ## Two machines in step -/

/-- The two machines differ in memory outside the cells and in the trace switch at most. -/
structure AgreesOn (cells : List Nat) (m m' : Machine) : Prop where
  registers : m'.registers = m.registers
  phase : m'.phase = m.phase
  statistics : m'.statistics = m.statistics
  memory : ∀ c ∈ cells, m'.memory.word c = m.memory.word c

section
variable (h : AgreesOn cells m m') (covered : m.stepReads ⊆ cells)
  (live : m.phase.isTerminal = false)

include h covered live

/-- Both fetch the same word. -/
theorem AgreesOn.word : m'.word = m.word := by
  rw [stepReads, live] at covered
  obtain ⟨pc, -⟩ := List.append_subset.1 covered
  rw [Machine.word, h.registers]
  exact Memory.word_congr fun c hc => h.memory c (pc hc)

/-- The memories agree on what the next instruction reads. -/
theorem AgreesOn.operands (inside : m.registers.pc.value.toNat < memoryWords)
    (decodes : Instruction.decode? m.word = some i) :
    ∀ c ∈ i.reads m.memory, m'.memory.word c = m.memory.word c := by
  rw [stepReads, live, instruction_of_decode inside decodes] at covered
  obtain ⟨-, operands⟩ := List.append_subset.1 covered
  exact fun c hc => h.memory c (operands hc)

/-- The machines execute the same instruction. -/
theorem AgreesOn.executes (hi : m.Executes i) : m'.Executes i where
  inside := by rw [h.registers]; exact hi.inside
  decodes := by rw [h.word covered live]; exact hi.decodes
  tame := by
    have operands := h.operands covered live hi.inside hi.decodes
    rw [(Instruction.parts_congr (r := m.registers) operands).1]
    exact hi.tame

/-- They are about to meet the same fault. -/
theorem AgreesOn.blocked (hf : m.Blocked f) : m'.Blocked f := by
  have word := h.word covered live
  have pc : m'.registers.pc = m.registers.pc := by rw [h.registers]
  cases hf with
  | fetch outside =>
    rw [← pc] at outside ⊢
    exact .fetch outside
  | opcode inside decodes =>
    rw [← pc, ← word]
    exact .opcode (pc ▸ inside) (word ▸ decodes)
  | @pointer i p access inside decodes hp wild =>
    have operands := h.operands covered live inside decodes
    have fault := Instruction.wild?_eq_some_iff.2 ⟨p, access, hp, wild, rfl⟩
    rw [← (Instruction.parts_congr (r := m.registers) operands).1] at fault
    obtain ⟨q, access', hq, wild', eq⟩ := Instruction.wild?_eq_some_iff.1 fault
    rw [eq]
    exact .pointer (pc ▸ inside) (word ▸ decodes) hq wild'

end

/-- Both write the same word to the same cell, if they write at all. -/
theorem AgreesOn.written (h : AgreesOn cells m m') (covered : m.stepReads ⊆ cells) (cell : Nat) :
    m'.retirement?.bind (·.written? cell) = m.retirement?.bind (·.written? cell) := by
  cases live : m.phase.isTerminal with
  | true =>
    have live' : m'.phase.isTerminal = true := by rw [h.phase, live]
    rw [retirement?_of_terminal live, retirement?_of_terminal live']
  | false =>
    have live' : m'.phase.isTerminal = false := by rw [h.phase, live]
    obtain ⟨i, hi⟩ | ⟨f, hf⟩ := m.executes_or_blocked
    · have hi' := h.executes covered live hi
      have operands := h.operands covered live hi.inside hi.decodes
      obtain ⟨-, -, write⟩ := Instruction.parts_congr (r := m.registers) operands
      rw [retirement?_of_executes live hi, retirement?_of_executes live' hi']
      simp only [Option.bind_some, Retirement.written?, h.registers, write]
    · rw [retirement?_of_blocked hf, retirement?_of_blocked (h.blocked covered live hf)]

/-- **Both machines take the same step**, and agree behind it on the cells they agreed on. -/
theorem AgreesOn.next (h : AgreesOn cells m m') (covered : m.stepReads ⊆ cells) :
    AgreesOn cells m.next m'.next := by
  cases live : m.phase.isTerminal with
  | true =>
    have live' : m'.phase.isTerminal = true := by rw [h.phase, live]
    rw [next_of_terminal live, next_of_terminal live']
    exact h
  | false =>
    have live' : m'.phase.isTerminal = false := by rw [h.phase, live]
    obtain ⟨i, hi⟩ | ⟨f, hf⟩ := m.executes_or_blocked
    · have hi' := h.executes covered live hi
      have operands := h.operands covered live hi.inside hi.decodes
      obtain ⟨-, registers, -⟩ := Instruction.parts_congr (r := m.registers) operands
      refine ⟨?_, ?_, ?_, fun c hc => ?_⟩
      · rw [next_registers_of_executes live hi, next_registers_of_executes live' hi', h.registers,
          registers]
      · rw [next_eq_retired live hi, next_eq_retired live' hi']
      · rw [next_eq_retired live hi, next_eq_retired live' hi']
        simp only [retired, retire, Instruction.done, h.statistics, h.registers]
      · -- a cell they agreed on was overwritten with the same word or not at all
        rw [(setBy_written c).next m', (setBy_written c).next m, h.written covered,
          h.memory c hc]
    · rw [next_of_blocked live hf, next_of_blocked live' (h.blocked covered live hf)]
      exact ⟨h.registers, rfl, h.statistics, h.memory⟩

/-- Both machines run in step as long as the cells hold all that the run reads. -/
theorem AgreesOn.after (h : AgreesOn cells m m') (covered : m.reads n ⊆ cells) :
    AgreesOn cells (m.after n) (m'.after n) ∧ ∀ cell, m'.written cell n = m.written cell n := by
  induction n generalizing m m' with
  | zero => exact ⟨h, fun _ => rfl⟩
  | succ n ih =>
    obtain ⟨step, rest⟩ := List.append_subset.1 covered
    obtain ⟨after, later⟩ := ih (h.next step) rest
    refine ⟨after, fun cell => ?_⟩
    rw [Machine.written, Machine.written, filterMap_trail_succ, filterMap_trail_succ,
      h.written step]
    exact congrArg _ (later cell)

/-- **A run depends on the cells it reads alone.** A machine that agrees with another on registers,
phase, statistics and the cells that the other's run reads runs to the same status, registers,
phase and statistics. Every cell was written by both runs and holds the same word, or by neither
and holds on each machine what it held there before. -/
theorem run_eq_of_agreesOn (n : Nat) (h : AgreesOn (m.reads n) m m') :
    (m'.run n).1 = (m.run n).1 ∧
    (m'.run n).2.registers = (m.run n).2.registers ∧
    (m'.run n).2.phase = (m.run n).2.phase ∧
    (m'.run n).2.statistics = (m.run n).2.statistics ∧
    ∀ cell,
      (m.written cell n ≠ [] ∧ m'.written cell n ≠ [] ∧
        (m'.run n).2.memory.word cell = (m.run n).2.memory.word cell) ∨
      (m.written cell n = [] ∧ m'.written cell n = [] ∧
        (m.run n).2.memory.word cell = m.memory.word cell ∧
        (m'.run n).2.memory.word cell = m'.memory.word cell) := by
  obtain ⟨after, written⟩ := h.after (List.Subset.refl _)
  rw [run_eq, run_eq]
  refine ⟨by simp only [status, after.phase], after.registers, after.phase, after.statistics,
    fun cell => ?_⟩
  dsimp only
  rw [word_after, word_after, written]
  cases m.written cell n with
  | nil => exact .inr ⟨rfl, rfl, rfl, rfl⟩
  | cons w ws =>
    rw [List.getLastD_cons, List.getLastD_cons]
    exact .inl ⟨List.cons_ne_nil w ws, List.cons_ne_nil w ws, rfl⟩

/-- An increment through pointer cell `$20`, which points to cell `$30`, and a halt. -/
def pointedIncrement : Machine :=
  { new with memory := ((Memory.zeros.put 0 0x6320).put 0x20 0x30).put 0x30 0xFFFF }

/-- The same with another word in cell `$31`, which the run does not read. -/
def pointedIncrementBeside : Machine :=
  { pointedIncrement with memory := pointedIncrement.memory.put 0x31 0x1234 }

theorem run_eq_of_agreesOn_pointedIncrement :
    pointedIncrement.reads 5 = [0, 0x20, 0x30, 1] ∧
    AgreesOn (pointedIncrement.reads 5) pointedIncrement pointedIncrementBeside ∧
    (pointedIncrementBeside.run 5).2.memory.word 0x30 = 0 ∧
    (pointedIncrementBeside.run 5).2.memory.word 0x31 = 0x1234 := by
  have reads : pointedIncrement.reads 5 = [0, 0x20, 0x30, 1] := by decide +kernel
  have agrees : AgreesOn (pointedIncrement.reads 5) pointedIncrement pointedIncrementBeside := by
    refine ⟨rfl, rfl, rfl, ?_⟩
    rw [reads]
    decide +kernel
  obtain ⟨-, -, -, -, cells⟩ := run_eq_of_agreesOn 5 agrees
  have written : pointedIncrement.written 0x30 5 = [0] := by decide +kernel
  have unwritten : pointedIncrement.written 0x31 5 = [] := by decide +kernel
  refine ⟨reads, agrees, ?_, ?_⟩
  · obtain ⟨-, -, same⟩ | ⟨none, -⟩ := cells 0x30
    · rw [same, run_eq, word_after, written]
      rfl
    · rw [written] at none
      cases none
  · obtain ⟨some, -⟩ | ⟨-, -, -, kept⟩ := cells 0x31
    · exact absurd unwritten some
    · rw [kept]
      decide +kernel

end Machine
end Accumulator
