import Accumulator.Proofs.Trail

/-!
# The last writer of every part of a machine

Each cell, the flag and the accumulator are set by some instructions and left alone by all others:
a cell by the stores and updates whose target it is, the flag by the two tests, the accumulator by
loads, arithmetic and bitwise operations. What a run leaves in such a part is what the last of
these instructions has set it to, or what was there before the run (`word_after`, `flag_after`,
`acc_after`). Where a target goes through a pointer cell, the cell written is the one that the
pointer held when the instruction was executed.
-/

namespace Accumulator

/-! ## What an instruction sets -/

namespace Instruction

variable {r : Registers} {m : Memory} {i : Instruction} {a : Address} {w : UInt16}

/-- The outcome of a test, which becomes the flag. -/
def test? (r : Registers) (m : Memory) : Instruction → Option Bool
  | .cmp o => some (r.acc == o.word m)
  | .bit o => some (r.acc &&& o.word m == 0)
  | _ => none

/-- The result of a load or of an operation, which becomes the accumulator. -/
def result? (r : Registers) (m : Memory) : Instruction → Option UInt16
  | .load s => some (s.word m)
  | .add o => some (r.acc + o.word m)
  | .sub o => some (r.acc - o.word m)
  | .bitwise op o => some (op.apply r.acc (o.word m))
  | _ => none

/-- An instruction leaves the registers but for its result and its test. -/
theorem registers_eq (r : Registers) (m : Memory) (i : Instruction) :
    i.registers r m =
      { r with acc := (i.result? r m).getD r.acc, flag := (i.test? r m).getD r.flag } := by
  cases i <;> rfl

/-- The target of an instruction that does not fault is a cell. -/
theorem lt_of_write? (tame : i.wild? m = none) (h : i.write? r m = some (a, w)) :
    a.value.toNat < memoryWords := by
  have inside (t : Target) (access : Access) (ht : t.wild? m access = none) :
      (t.place m).value.toNat < memoryWords := by
    by_contra outside
    rw [Target.wild?, if_pos (Nat.not_lt.1 outside)] at ht
    cases ht
  cases i with
  | store t | zero t | inc t | dec t =>
    cases h
    exact inside t _ tame
  | halt | load _ | add _ | sub _ | cmp _ | breq _ | brne _ | jump _ | bitwise _ _ | bit _
  | noop _ => cases h

end Instruction

namespace Retirement

/-- What the instruction set the flag to, if it is a test. -/
def test? (e : Retirement) : Option Bool :=
  e.instruction.test? e.machine.registers e.machine.memory

/-- What the instruction set the accumulator to, if it has a result. -/
def result? (e : Retirement) : Option UInt16 :=
  e.instruction.result? e.machine.registers e.machine.memory

/-- What the instruction wrote to a cell, if the cell is its target. -/
def written? (cell : Nat) (e : Retirement) : Option UInt16 :=
  match e.instruction.write? e.machine.registers e.machine.memory with
  | some (a, w) => if cell = a.value.toNat then some w else none
  | none => none

end Retirement

namespace Machine

variable {m : Machine} {i : Instruction}

/-- The words that a run writes to a cell, in order. -/
def written (cell n : Nat) (m : Machine) : List UInt16 :=
  (m.trail n).filterMap (·.written? cell)

/-- The outcomes of the tests that a run makes, in order. -/
def tests (n : Nat) (m : Machine) : List Bool :=
  (m.trail n).filterMap (·.test?)

/-- The results that a run computes, in order. -/
def results (n : Nat) (m : Machine) : List UInt16 :=
  (m.trail n).filterMap (·.result?)

/-! ## The parts behind a run -/

/-- A cell is set by the instructions that write to it. -/
theorem setBy_written (cell : Nat) : SetBy (·.memory.word cell) (·.written? cell) where
  fault _ _ := rfl
  retire m i live hi := by
    rw [next_memory_of_executes live hi, Instruction.memory, Retirement.written?]
    rcases h : i.write? m.registers m.memory with _ | ⟨a, w⟩
    · rfl
    · dsimp only
      rw [Memory.word_put (Instruction.lt_of_write? hi.tame h)]
      split <;> rfl

/-- The flag is set by the two comparisons. -/
theorem setBy_test : SetBy (·.registers.flag) (·.test?) where
  fault _ _ := rfl
  retire m i live hi := by
    rw [next_registers_of_executes live hi, Instruction.registers_eq]
    rfl

/-- The accumulator is set by loads, sums, differences and the bitwise operations. -/
theorem setBy_result : SetBy (·.registers.acc) (·.result?) where
  fault _ _ := rfl
  retire m i live hi := by
    rw [next_registers_of_executes live hi, Instruction.registers_eq]
    rfl

/-- A cell behind a run holds the last word written to it, or what it held before. -/
theorem word_after (cell n : Nat) (m : Machine) :
    (m.after n).memory.word cell = (m.written cell n).getLastD (m.memory.word cell) :=
  (setBy_written cell).after n m

/-- The flag behind a run is the outcome of the last test, or what it was before. -/
theorem flag_after (n : Nat) (m : Machine) :
    (m.after n).registers.flag = (m.tests n).getLastD m.registers.flag :=
  setBy_test.after n m

/-- The accumulator behind a run is the last result, or what it was before. -/
theorem acc_after (n : Nat) (m : Machine) :
    (m.after n).registers.acc = (m.results n).getLastD m.registers.acc :=
  setBy_result.after n m

/-! ## One step changes one cell at most -/

/-- Two cells that a step changes are one. -/
theorem eq_of_word_next_ne {c d : Nat} (hc : m.next.memory.word c ≠ m.memory.word c)
    (hd : m.next.memory.word d ≠ m.memory.word d) : c = d := by
  have target {c : Nat} (hc : m.next.memory.word c ≠ m.memory.word c) :
      ∃ e w, m.retirement? = some e ∧ e.written? c = some w := by
    rw [(setBy_written c).next m] at hc
    cases he : m.retirement? with
    | none => rw [he] at hc; exact absurd rfl hc
    | some e =>
      cases hw : e.written? c with
      | none => rw [he, Option.bind_some, hw] at hc; exact absurd rfl hc
      | some w => exact ⟨e, w, rfl, hw⟩
  obtain ⟨e, v, he, hv⟩ := target hc
  obtain ⟨e', w, he', hw⟩ := target hd
  cases he.symm.trans he'
  unfold Retirement.written? at hv hw
  generalize e.instruction.write? e.machine.registers e.machine.memory = write at hv hw
  rcases write with _ | ⟨a, u⟩
  · cases hv
  · dsimp only at hv hw
    rw [Option.ite_none_right_eq_some] at hv hw
    exact hv.1.trans hw.1.symm

/-- **The last writer.** Behind a run every cell holds the last word that a retired instruction
wrote to it, the flag is the outcome of the last retired test and the accumulator the last retired
result; what no retired instruction set is as it was before the run. The retired instructions are
those that the step counter counts. No step, retiring or faulting, changes two cells. -/
theorem run_last_writer (m : Machine) (n : Nat) :
    (∀ cell, (m.run n).2.memory.word cell =
      (m.written cell n).getLastD (m.memory.word cell)) ∧
    (m.run n).2.registers.flag = (m.tests n).getLastD m.registers.flag ∧
    (m.run n).2.registers.acc = (m.results n).getLastD m.registers.acc ∧
    (m.run n).2.statistics.steps = m.statistics.steps + .ofNat (m.trail n).length ∧
    ∀ (x : Machine) (c d : Nat), x.step.2.memory.word c ≠ x.memory.word c →
      x.step.2.memory.word d ≠ x.memory.word d → c = d := by
  rw [run_eq]
  refine ⟨fun cell => word_after cell n m, flag_after n m, acc_after n m, ?_, ?_⟩
  · rw [steps_after, length_trail]
  · intro x c d hc hd
    exact eq_of_word_next_ne hc hd

end Machine
end Accumulator
