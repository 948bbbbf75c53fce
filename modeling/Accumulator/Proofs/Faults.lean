import Accumulator.Proofs.Counting

/-!
# What a fault says about the machine

A fault stops a machine before its instruction has changed anything, so the machine that a faulting
run leaves is the one before the failing step with another phase, and the reason is still to be
seen there. `Machine.Explains` spells out the four situations in terms of the program counter and
memory alone, and `explains_iff_blocked` says that there are no others.
-/

namespace Accumulator.Machine

variable {m m' : Machine} {f g : Fault} {n k : Nat} {p : UInt8}

/-! ## The four situations -/

/-- The next instruction reads through pointer cell `p`: a load, an increment or a decrement. -/
def ReadsThrough (m : Machine) (p : UInt8) : Prop :=
  Instruction.decode? m.word = some (.load (.indirect p)) ∨
    Instruction.decode? m.word = some (.inc (.indirect p)) ∨
    Instruction.decode? m.word = some (.dec (.indirect p))

/-- The next instruction writes through pointer cell `p` without a read: a store or a zero. -/
def WritesThrough (m : Machine) (p : UInt8) : Prop :=
  Instruction.decode? m.word = some (.store (.indirect p)) ∨
    Instruction.decode? m.word = some (.zero (.indirect p))

/-- The registers and the memory of a machine explain a fault. -/
def Explains (m : Machine) : Fault → Prop
  | .outOfBounds a .fetch => a = m.registers.pc ∧ memoryWords ≤ m.registers.pc.value.toNat
  | .invalidOpcode pc word =>
    pc = m.registers.pc ∧ word = m.word ∧ m.registers.pc.value.toNat < memoryWords ∧
      Instruction.decode? m.word = none
  | .outOfBounds a .read =>
    m.registers.pc.value.toNat < memoryWords ∧ ∃ p, m.ReadsThrough p ∧
      a = ⟨m.memory.word p.toNat⟩ ∧ memoryWords ≤ (m.memory.word p.toNat).toNat
  | .outOfBounds a .write =>
    m.registers.pc.value.toNat < memoryWords ∧ ∃ p, m.WritesThrough p ∧
      a = ⟨m.memory.word p.toNat⟩ ∧ memoryWords ≤ (m.memory.word p.toNat).toNat

/-- The list of instructions that read through a pointer, taken from `pointer?`. -/
theorem readsThrough_iff : m.ReadsThrough p ↔
    ∃ i, Instruction.decode? m.word = some i ∧ i.pointer? = some (p, .read) := by
  constructor
  · rintro (h | h | h) <;> exact ⟨_, h, rfl⟩
  · rintro ⟨i, h, hp⟩
    obtain ⟨-, rfl | rfl | rfl⟩ | ⟨hw, -⟩ := Instruction.pointer?_eq_some_iff.1 hp
    · exact .inl h
    · exact .inr (.inl h)
    · exact .inr (.inr h)
    · cases hw

/-- The list of instructions that write through a pointer, taken from `pointer?`. -/
theorem writesThrough_iff : m.WritesThrough p ↔
    ∃ i, Instruction.decode? m.word = some i ∧ i.pointer? = some (p, .write) := by
  constructor
  · rintro (h | h) <;> exact ⟨_, h, rfl⟩
  · rintro ⟨i, h, hp⟩
    obtain ⟨hr, -⟩ | ⟨-, rfl | rfl⟩ := Instruction.pointer?_eq_some_iff.1 hp
    · cases hr
    · exact .inl h
    · exact .inr h

/-- **The faults that a machine explains are those that it is about to meet.** -/
theorem explains_iff_blocked : m.Explains f ↔ m.Blocked f := by
  constructor
  · intro h
    match f, h with
    | .outOfBounds _ .fetch, ⟨rfl, outside⟩ => exact .fetch outside
    | .invalidOpcode _ _, ⟨rfl, rfl, inside, decodes⟩ => exact .opcode inside decodes
    | .outOfBounds _ .read, ⟨inside, p, reads, rfl, wild⟩ =>
      obtain ⟨i, decodes, hp⟩ := readsThrough_iff.1 reads
      exact .pointer inside decodes hp wild
    | .outOfBounds _ .write, ⟨inside, p, writes, rfl, wild⟩ =>
      obtain ⟨i, decodes, hp⟩ := writesThrough_iff.1 writes
      exact .pointer inside decodes hp wild
  · intro h
    cases h with
    | fetch outside => exact ⟨rfl, outside⟩
    | opcode inside decodes => exact ⟨rfl, rfl, inside, decodes⟩
    | @pointer i p access inside decodes hp wild =>
      -- the first access through a pointer is a read or a write, never a fetch
      obtain ⟨rfl, -⟩ | ⟨rfl, -⟩ := Instruction.pointer?_eq_some_iff.1 hp
      · exact ⟨inside, p, readsThrough_iff.2 ⟨i, decodes, hp⟩, rfl, wild⟩
      · exact ⟨inside, p, writesThrough_iff.2 ⟨i, decodes, hp⟩, rfl, wild⟩

/-- A machine explains one fault at most. -/
theorem Explains.unique (hf : m.Explains f) (hg : m.Explains g) : f = g :=
  (explains_iff_blocked.1 hf).unique (explains_iff_blocked.1 hg)

/-- The phase takes no part in an explanation. -/
theorem Explains.phase (h : m.Explains f) (phase : Phase) : Explains { m with phase } f :=
  h

/-- A step of a machine that has not stopped reports a fault just in case the machine explains
it. -/
theorem step_fault_iff (live : m.phase.isTerminal = false) :
    m.step.1 = .fault f ↔ m.Explains f := by
  rw [explains_iff_blocked]
  constructor
  · intro h
    obtain ⟨i, hi⟩ | ⟨g, hg⟩ := m.executes_or_blocked
    · rw [step_of_live live, hi.advance] at h
      cases hf : i.flow m.registers <;> rw [hf] at h <;> cases h
    · rw [step_of_live live, hg.advance] at h
      cases h
      exact hg
  · intro h
    rw [step_of_live live, h.advance]

/-! ## Faults at the end of a run -/

/-- A run that reports a fault went on up to the step that met it. -/
theorem exists_blocked_of_run (live : m.phase.isTerminal = false) (h : (m.run n).1 = .fault f) :
    ∃ k < n, m.StopsAfter k ∧ (m.after k).Blocked f ∧
      (m.run n).2 = { m.after k with phase := .faulted f } := by
  rw [run_eq] at h ⊢
  dsimp only at h ⊢
  have stopped : (m.after n).phase.isTerminal = true := by
    rw [← isTerminal_status, h]
    rfl
  obtain ⟨k, hk, stops⟩ := exists_stopsAfter live stopped
  rw [stops.after_eq hk] at h ⊢
  refine ⟨k, hk, stops, ?_⟩
  obtain ⟨-, last⟩ | ⟨g, hg, last⟩ := stops.cases
  · rw [last] at h
    cases h
  · rw [last] at h ⊢
    cases h
    exact ⟨hg, rfl⟩

/-- **A fault is atomic and explained.** A run that reports a fault leaves the machine of the run
one step shorter than its failing step, but for the phase; as many instructions retired as that
shorter run has steps. The machine explains this fault and no other, and what it explains is what
makes a step fault at all. -/
theorem run_fault (live : m.phase.isTerminal = false)
    (room : m.statistics.steps.toNat + n < 2 ^ 64) (h : (m.run n).1 = .fault f) :
    (∃ k, (m.run n).2.statistics.steps.toNat = m.statistics.steps.toNat + k ∧ k < n ∧
      (m.run k).1 = .continue ∧ (m.run n).2 = { (m.run k).2 with phase := .faulted f }) ∧
    (∀ g, f = g ↔ (m.run n).2.Explains g) ∧
    ∀ x : Machine, x.phase.isTerminal = false → ∀ g, x.step.1 = .fault g ↔ x.Explains g := by
  obtain ⟨k, hk, stops, blocked, last⟩ := exists_blocked_of_run live h
  have explains := (explains_iff_blocked.2 blocked).phase (.faulted f)
  rw [last]
  refine ⟨⟨k, ?_, hk, ?_, ?_⟩, fun g => ⟨?_, explains.unique⟩, fun x hx g => step_fault_iff hx⟩
  · have count := retirements_of_live stops.live
    change (m.after k).statistics.steps.toNat = _
    rw [toNat_steps_after (by omega), count]
  · rw [run_eq]
    exact status_of_live stops.live
  · rw [run_eq]
  · rintro rfl
    exact explains

/-- A no-op in front of an increment through a pointer cell that holds `0x1234`. -/
def wildIncrement : Machine :=
  { new with memory := ((Memory.zeros.put 0 0xF200).put 1 0x6305).put 5 0x1234 }

theorem run_fault_wildIncrement :
    (wildIncrement.run 3).1 = .fault (.outOfBounds ⟨0x1234⟩ .read) ∧
    (∃ k, (wildIncrement.run 3).2.statistics.steps.toNat = 0 + k ∧ k < 3 ∧
      (wildIncrement.run k).1 = .continue ∧ (wildIncrement.run 3).2 =
        { (wildIncrement.run k).2 with phase := .faulted (.outOfBounds ⟨0x1234⟩ .read) }) ∧
    ∀ g, .outOfBounds ⟨0x1234⟩ .read = g ↔ (wildIncrement.run 3).2.Explains g := by
  have h : (wildIncrement.run 3).1 = .fault (.outOfBounds ⟨0x1234⟩ .read) := by decide +kernel
  obtain ⟨atomic, explained, -⟩ := run_fault rfl (by decide +kernel) h
  exact ⟨h, atomic, explained⟩

end Accumulator.Machine
