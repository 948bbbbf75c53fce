import Accumulator.Proofs.StraightLine

/-!
# Straight lines up to the end of memory

A pure instruction sets the accumulator or the flag from these two and its operand, and goes on to
the next word. `Instruction.compute` is what it does to the two, as a function of them and of
memory; memory stays as it is (`memory_foldl_go`), so a line of pure instructions is the fold of
`compute` over one memory (`data_foldl_go`), even where its operands are words of the program
itself. A program of pure instructions cannot stop before its end (`At.run_of_le`). If it ends with
the last cell, the next fetch fails and does not wrap around (`At.run_of_lt`, `run_to_end`).
-/

namespace Accumulator

namespace Instruction

/-- The accumulator and the flag behind a pure instruction, given what they were before it. -/
def compute (m : Memory) : UInt16 × Bool → Instruction → UInt16 × Bool
  | (_, flag), .load (.immediate v) => (v.toUInt16, flag)
  | (_, flag), .load (.direct c) => (m.word c.toNat, flag)
  | (acc, flag), .add o => (acc + o.word m, flag)
  | (acc, flag), .sub o => (acc - o.word m, flag)
  | (acc, flag), .bitwise op o => (op.apply acc (o.word m), flag)
  | (acc, _), .cmp o => (acc, acc == o.word m)
  | (acc, _), .bit o => (acc, acc &&& o.word m == 0)
  | data, _ => data

variable {i : Instruction}

/-- A pure instruction leaves memory as it is. -/
theorem memory_of_isPure (h : i.isPure = true) (r : Registers) (m : Memory) : i.memory r m = m := by
  obtain ⟨-, silent, -⟩ := parts_of_isPure h r m
  rw [memory, silent]

/-- What a pure instruction does to accumulator and flag is what `compute` says. -/
theorem registers_of_isPure (h : i.isPure = true) (r : Registers) (m : Memory) :
    ((i.registers r m).acc, (i.registers r m).flag) = i.compute m (r.acc, r.flag) := by
  cases i with
  | load s =>
    cases s with
    | immediate _ | direct _ => rfl
    | indirect _ => cases h
  | add _ | sub _ | cmp _ | bitwise _ _ | bit _ | noop _ => rfl
  | halt | store _ | breq _ | brne _ | jump _ | zero _ | inc _ | dec _ => cases h

end Instruction

namespace Machine

variable {m : Machine} {code block : List Instruction} {origin k n : Nat}

/-! ## Lines of pure instructions -/

/-- Pure instructions form a straight line on every machine, since none of them writes into the
program. -/
theorem Straight.of_isPure (pure : ∀ i ∈ block, i.isPure = true) (m : Machine) :
    Straight code origin block m := by
  induction block generalizing m with
  | nil => trivial
  | cons i rest ih =>
    obtain ⟨first, rest⟩ := List.forall_mem_cons.1 pure
    exact ⟨.of_isPure first, ih rest (m.go i)⟩

/-- A line of pure instructions leaves memory as it is. -/
theorem memory_foldl_go (pure : ∀ i ∈ block, i.isPure = true) (m : Machine) :
    (block.foldl go m).memory = m.memory := by
  induction block generalizing m with
  | nil => rfl
  | cons i rest ih =>
    obtain ⟨first, rest⟩ := List.forall_mem_cons.1 pure
    rw [List.foldl_cons, ih rest, memory_go, Instruction.memory_of_isPure first]

/-- Behind a line of pure instructions accumulator and flag are the fold of what each of them
computes, over the memory in front of the line. -/
theorem data_foldl_go (pure : ∀ i ∈ block, i.isPure = true) (m : Machine) :
    ((block.foldl go m).registers.acc, (block.foldl go m).registers.flag) =
      block.foldl (Instruction.compute m.memory) (m.registers.acc, m.registers.flag) := by
  induction block generalizing m with
  | nil => rfl
  | cons i rest ih =>
    obtain ⟨first, rest⟩ := List.forall_mem_cons.1 pure
    have memory : (m.go i).memory = m.memory := Instruction.memory_of_isPure first _ _
    have data : ((m.go i).registers.acc, (m.go i).registers.flag) =
        i.compute m.memory (m.registers.acc, m.registers.flag) :=
      Instruction.registers_of_isPure first _ _
    rw [List.foldl_cons, List.foldl_cons, ih rest, memory, data]

/-! ## Programs of pure instructions -/

/-- A program of pure instructions is run from its start one instruction a step. -/
theorem At.after_take (h : m.At code origin 0) (pure : ∀ i ∈ code, i.isPure = true)
    (hk : k ≤ code.length) :
    m.after k = (code.take k).foldl go m ∧ (m.after k).At code origin k := by
  have front : code.take k <+: code.drop 0 := List.take_prefix k code
  have straight : Straight code origin (code.take k) m :=
    .of_isPure (fun i hi => pure i (List.mem_of_mem_take hi)) m
  obtain ⟨after, stands⟩ := h.line front straight
  rw [List.length_take_of_le hk] at after stands
  rw [Nat.zero_add, ← after] at stands
  exact ⟨after, stands⟩

/-- A run within the program goes on, and leaves what the instructions so far compute. -/
theorem At.run_of_le (h : m.At code origin 0) (pure : ∀ i ∈ code, i.isPure = true)
    (hk : k ≤ code.length) :
    (m.run k).1 = .continue ∧ (m.run k).2.registers.pc.value.toNat = origin + k ∧
      (m.run k).2.memory = m.memory ∧
      ((m.run k).2.registers.acc, (m.run k).2.registers.flag) =
        (code.take k).foldl (Instruction.compute m.memory) (m.registers.acc, m.registers.flag) := by
  obtain ⟨after, stands⟩ := h.after_take pure hk
  have line : ∀ i ∈ code.take k, i.isPure = true := fun i hi => pure i (List.mem_of_mem_take hi)
  rw [run_eq]
  refine ⟨status_of_live stands.live, stands.pc, ?_, ?_⟩
  · rw [after, memory_foldl_go line]
  · rw [after, data_foldl_go line]

/-- Behind a program that ends with the last cell the program counter is `$100`. -/
theorem At.pc_eq_end (h : m.At code origin code.length)
    (fills : origin + code.length = memoryWords) : m.registers.pc = ⟨0x100⟩ := by
  have pc : m.registers.pc.value.toNat = 0x100 := h.pc.trans fills
  exact congrArg Address.mk (UInt16.toNat_inj.1 pc)

/-- Behind a program that ends with the last cell the next step fails to fetch. -/
theorem At.blocked_end (h : m.At code origin code.length)
    (fills : origin + code.length = memoryWords) : m.Blocked (.outOfBounds ⟨0x100⟩ .fetch) := by
  have outside : memoryWords ≤ m.registers.pc.value.toNat := by rw [h.pc, fills]
  rw [← h.pc_eq_end fills]
  exact .fetch outside

/-- A run beyond a program that ends with the last cell retires the program and then fails to
fetch. -/
theorem At.run_of_lt (h : m.At code origin 0) (pure : ∀ i ∈ code, i.isPure = true)
    (fills : origin + code.length = memoryWords) (hn : code.length < n) :
    (m.run n).1 = .fault (.outOfBounds ⟨0x100⟩ .fetch) ∧ (m.run n).2.registers.pc = ⟨0x100⟩ ∧
      m.retirements n = code.length ∧
      (m.run n).2.statistics.steps = m.statistics.steps + .ofNat code.length := by
  obtain ⟨-, stands⟩ := h.after_take pure (Nat.le_refl _)
  have blocked := stands.blocked_end fills
  have last : m.after (code.length + 1) =
      { m.after code.length with phase := .faulted (.outOfBounds ⟨0x100⟩ .fetch) } := by
    rw [after_succ', next_of_blocked stands.live blocked]
  have stops : m.StopsAfter code.length := ⟨stands.live, by rw [last]; rfl⟩
  have retired : m.retirements n = code.length := by
    rw [stops.retirements_eq hn, retires_of_blocked blocked]
    rfl
  rw [run_eq]
  refine ⟨?_, ?_, retired, ?_⟩
  · rw [stops.after_eq hn, last]
    rfl
  · rw [stops.after_eq hn, last]
    exact stands.pc_eq_end fills
  · rw [steps_after, retired]

/-- **A straight line runs to the end of memory.** Let a program of pure instructions be as long as
there are cells from its origin on. A machine that has not stopped loads it there and, its program
counter set to the origin, executes it one instruction a step. Within the length of the program a
run goes on, with memory as it was loaded and with the accumulator and the flag that the
instructions so far compute, their direct operands read from that memory. Every longer run retires
the whole program and reports the failed fetch behind the last cell, with the program counter
there. -/
theorem run_to_end (m : Machine) (o : Address) (p : List Instruction)
    (live : m.phase.isTerminal = false) (inside : o.value.toNat < memoryWords)
    (fills : p.length = memoryWords - o.value.toNat) (pure : ∀ i ∈ p, i.isPure = true) :
    ∃ loaded, m.load (p.map Instruction.encode) o = .ok loaded ∧
      (∀ k ≤ memoryWords - o.value.toNat,
        ((loaded.setPc o).run k).1 = .continue ∧
        ((loaded.setPc o).run k).2.registers.pc.value.toNat = o.value.toNat + k ∧
        ((loaded.setPc o).run k).2.memory = loaded.memory ∧
        (((loaded.setPc o).run k).2.registers.acc, ((loaded.setPc o).run k).2.registers.flag) =
          (p.take k).foldl (Instruction.compute loaded.memory)
            (m.registers.acc, m.registers.flag)) ∧
      ∀ n > memoryWords - o.value.toNat,
        ((loaded.setPc o).run n).1 = .fault (.outOfBounds ⟨0x100⟩ .fetch) ∧
        ((loaded.setPc o).run n).2.registers.pc = ⟨0x100⟩ ∧
        (loaded.setPc o).retirements n = memoryWords - o.value.toNat ∧
        ((loaded.setPc o).run n).2.statistics.steps =
          m.statistics.steps + .ofNat (memoryWords - o.value.toNat) := by
  have ends : o.value.toNat + p.length = memoryWords := by omega
  have fits : Memory.Fits o (p.map Instruction.encode).length := by
    rw [List.length_map]
    exact ⟨inside, Nat.le_of_eq ends⟩
  refine ⟨_, load_of_fits fits, ?_⟩
  rw [← fills]
  have start := at_placed (m := Machine.setPc { m with
      memory := m.memory.overlay (p.map Instruction.encode) o.value.toNat } o)
    live (Nat.le_of_eq ends) rfl rfl
  exact ⟨fun k hk => start.run_of_le pure hk, fun n hn => start.run_of_lt pure ends hn⟩

/-- A program on the last three cells of a new machine, two of its operands being its own words. -/
theorem run_to_end_ownWords :
    let p : List Instruction := [.load (.direct 0xFE), .add (.direct 0xFD), .bit (.immediate 4)]
    p.length = memoryWords - 0xFD ∧ (∀ i ∈ p, i.isPure = true) ∧
    ∃ loaded, new.load (p.map Instruction.encode) ⟨0xFD⟩ = .ok loaded ∧
      ((loaded.setPc ⟨0xFD⟩).run 3).1 = .continue ∧
      (((loaded.setPc ⟨0xFD⟩).run 3).2.registers.acc,
        ((loaded.setPc ⟨0xFD⟩).run 3).2.registers.flag) = (0x21FD + 0x11FE, true) ∧
      ((loaded.setPc ⟨0xFD⟩).run 4).1 = .fault (.outOfBounds ⟨0x100⟩ .fetch) ∧
      (loaded.setPc ⟨0xFD⟩).retirements 4 = 3 := by
  intro p
  have pure : ∀ i ∈ p, i.isPure = true := List.all_eq_true.1 rfl
  obtain ⟨loaded, load, within, beyond⟩ := run_to_end new ⟨0xFD⟩ p rfl (by decide) rfl pure
  obtain ⟨goes, -, -, data⟩ := within 3 (by decide)
  obtain ⟨fault, -, retired, -⟩ := beyond 4 (by decide)
  refine ⟨rfl, pure, loaded, load, goes, ?_, fault, retired⟩
  have fits : Memory.Fits ⟨0xFD⟩ (p.map Instruction.encode).length := by decide
  cases (load_of_fits fits).symm.trans load
  rw [data]
  decide +kernel

end Machine
end Accumulator
