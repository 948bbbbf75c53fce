import Accumulator.Proofs.ProgramCounter

/-!
# The counters are a tally of what retired

Each instruction is counted among all steps and in one class, a conditional branch in one of two by
whether it was taken. The machine does not look at the flag for that but at whether control was
transferred, as it is by a jump too. `Machine.chronicle` lists the instructions that a run retires,
each with the flag in front of it, and `statistics_law` says that the flag would have told the same:
every counter moves by the number of members of its class in the chronicle.
-/

namespace Accumulator

/-! ## Records -/

/-- The classes in which instructions are counted. -/
inductive Statistics.Class where
  | load
  | store
  | arithmetic
  | comparison
  | bitwise
  | update
  | branchTaken
  | branchNotTaken
  | jump
  | halt
  | noop
deriving DecidableEq

/-- The class of an instruction; `taken` matters for conditional branches only. -/
def Instruction.classBy (taken : Bool) : Instruction → Statistics.Class
  | .halt => .halt
  | .load _ => .load
  | .store _ => .store
  | .add _ | .sub _ => .arithmetic
  | .cmp _ | .bit _ => .comparison
  | .bitwise _ _ => .bitwise
  | .zero _ | .inc _ | .dec _ => .update
  | .noop _ => .noop
  | .breq _ | .brne _ => if taken then .branchTaken else .branchNotTaken
  | .jump _ => .jump

/-- Does the instruction transfer control with the flag as it is? -/
def Instruction.jumps (flag : Bool) (i : Instruction) : Bool :=
  (i.jump? flag).isSome

/-- Control is transferred just in case the flag says so. -/
theorem Instruction.isJump_flow (r : Registers) (i : Instruction) :
    (i.flow r).isJump = i.jumps r.flag := by
  rw [flow_eq, jumps]
  cases i.jump? r.flag with
  | some t => rfl
  | none => dsimp only; split <;> rfl

namespace Statistics

/-- The counter of a class. -/
def count (s : Statistics) : Class → UInt64
  | .load => s.loads
  | .store => s.stores
  | .arithmetic => s.arithmetic
  | .comparison => s.comparisons
  | .bitwise => s.bitwise
  | .update => s.updates
  | .branchTaken => s.branchesTaken
  | .branchNotTaken => s.branchesNotTaken
  | .jump => s.jumps
  | .halt => s.halts
  | .noop => s.noops

/-- An instruction is counted in its class and in no other. -/
theorem count_record (s : Statistics) (i : Instruction) (taken : Bool) (c : Class) :
    (s.record i taken).count c = s.count c + .ofNat (if i.classBy taken = c then 1 else 0) := by
  cases i with
  | breq _ | brne _ => cases taken <;> cases c <;> simp [record, count, Instruction.classBy]
  | halt | load _ | store _ | add _ | sub _ | cmp _ | jump _ | bitwise _ _ | bit _ | zero _ | inc _
  | dec _ | noop _ => cases c <;> simp [record, count, Instruction.classBy]

/-- The statistics after a list of instructions, each with whether it jumped. -/
def recordAll (s : Statistics) (records : List (Instruction × Bool)) : Statistics :=
  records.foldl (fun s r => s.record r.1 r.2) s

/-- **A counter moves by the number of records in its class.** -/
theorem count_recordAll (c : Class) (records : List (Instruction × Bool)) (s : Statistics) :
    (s.recordAll records).count c =
      s.count c + .ofNat (records.countP fun r => r.1.classBy r.2 = c) := by
  induction records generalizing s with
  | nil => simp [recordAll]
  | cons r rest ih =>
    change ((s.record r.1 r.2).recordAll rest).count c = _
    rw [ih, count_record, List.countP_cons, Nat.add_comm, UInt64.ofNat_add, UInt64.add_assoc]
    simp only [decide_eq_true_eq]

end Statistics

namespace Machine

variable {m : Machine} {n : Nat}

/-! ## What a run records -/

/-- The instructions that a run retires, in order, each with the flag in front of it. -/
def chronicle (n : Nat) (m : Machine) : List (Instruction × Bool) :=
  (m.trail n).map fun e => (e.instruction, e.machine.registers.flag)

/-- How many instructions of a class a run retires; whether a branch is taken is told by the flag in
front of it. -/
def retiredIn (c : Statistics.Class) (n : Nat) (m : Machine) : Nat :=
  (m.chronicle n).countP fun (i, flag) => i.classBy (i.jumps flag) = c

/-- The first step of a chronicle, taken apart. -/
theorem chronicle_succ (n : Nat) (m : Machine) :
    m.chronicle (n + 1) =
      m.retirement?.toList.map (fun e => (e.instruction, e.machine.registers.flag)) ++
        m.next.chronicle n := by
  rw [chronicle, trail, List.map_append, chronicle]

/-- A chronicle has one entry for each retired instruction. -/
theorem length_chronicle (n : Nat) (m : Machine) : (m.chronicle n).length = m.retirements n := by
  rw [chronicle, List.length_map, length_trail]

/-- A step records the instruction that it retires, and nothing if it retires none. -/
theorem statistics_next (m : Machine) :
    m.next.statistics =
      m.statistics.recordAll ((m.chronicle 1).map fun (i, flag) => (i, i.jumps flag)) := by
  cases live : m.phase.isTerminal with
  | true =>
    rw [next_of_terminal live, chronicle_succ, retirement?_of_terminal live]
    rfl
  | false =>
    obtain ⟨i, hi⟩ | ⟨f, hf⟩ := m.executes_or_blocked
    · rw [next_eq_retired live hi, chronicle_succ, retirement?_of_executes live hi]
      change m.statistics.record i (i.flow m.registers).isJump = _
      rw [Instruction.isJump_flow]
      rfl
    · rw [next_of_blocked live hf, chronicle_succ, retirement?_of_blocked hf]
      rfl

/-- **The statistics behind a run are those before it with its chronicle recorded.** -/
theorem statistics_after (n : Nat) (m : Machine) :
    (m.after n).statistics =
      m.statistics.recordAll ((m.chronicle n).map fun (i, flag) => (i, i.jumps flag)) := by
  induction n generalizing m with
  | zero => rfl
  | succ n ih =>
    have first : m.chronicle (n + 1) = m.chronicle 1 ++ m.next.chronicle n := by
      rw [chronicle_succ, chronicle_succ]
      simp [chronicle, trail]
    rw [after_succ, ih, statistics_next, first, List.map_append, Statistics.recordAll,
      Statistics.recordAll, ← List.foldl_append, Statistics.recordAll]

/-- A counter on 64 bits moves by what a run retires in its class. -/
theorem count_after (c : Statistics.Class) (n : Nat) (m : Machine) :
    (m.after n).statistics.count c = m.statistics.count c + .ofNat (m.retiredIn c n) := by
  rw [statistics_after, Statistics.count_recordAll, List.countP_map]
  rfl

/-- A counter that has room moves as a natural number. -/
theorem toNat_add_ofNat {c : UInt64} {k : Nat} (room : c.toNat + k < 2 ^ 64) :
    (c + .ofNat k).toNat = c.toNat + k := by
  rw [UInt64.toNat_add, UInt64.toNat_ofNat']
  omega

/-- A step that reports a fault retires nothing. -/
theorem retires_of_step_fault {f : Fault} (h : m.step.1 = .fault f) : m.retires = false := by
  by_contra retires
  obtain ⟨live, i, hi⟩ := retires_iff.1 (Bool.eq_true_of_not_eq_false retires)
  rw [step_eq, next_eq_retired live hi] at h
  split at h <;> cases h

/-- **The statistics are the history of what retired.** As long as the counters have room, a run
moves the step counter by the length of its chronicle and the counter of every class by the number
of members of the class in the chronicle, where a branch counts as taken if its flag said so,
wherever its target is. A step that reports a fault retires nothing and moves no counter. -/
theorem statistics_law (steps : m.statistics.steps.toNat + (m.chronicle n).length < 2 ^ 64)
    (classes : ∀ c, (m.statistics.count c).toNat + m.retiredIn c n < 2 ^ 64) :
    (m.run n).2.statistics.steps.toNat = m.statistics.steps.toNat + (m.chronicle n).length ∧
    (∀ c, ((m.run n).2.statistics.count c).toNat =
      (m.statistics.count c).toNat + m.retiredIn c n) ∧
    ∀ (x : Machine) (f : Fault), x.step.1 = .fault f →
      x.chronicle 1 = [] ∧ x.step.2.statistics = x.statistics := by
  rw [run_eq]
  refine ⟨?_, fun c => ?_, fun x f h => ?_⟩
  · rw [length_chronicle] at steps ⊢
    exact toNat_steps_after steps
  · dsimp only
    rw [count_after, toNat_add_ofNat (classes c)]
  · have none : x.chronicle 1 = [] := by
      rw [← List.length_eq_zero_iff, length_chronicle, retirements, retires_of_step_fault h]
      rfl
    refine ⟨none, ?_⟩
    change x.next.statistics = x.statistics
    rw [statistics_next, none]
    rfl

/-- A comparison that sets the flag, a branch on it to the word behind, a branch on a clear flag and
a load through a wild pointer. -/
def branching : Machine :=
  { new with memory :=
      ((((Memory.zeros.put 0 0x2600).put 1 0x3002).put 2 0x3203).put 3 0x1410).put 0x10 0xFFFF }

/-- The branch to the word behind it is taken, the other one is not, and the load is not counted. -/
theorem statistics_law_branching :
    branching.chronicle 9 =
      [(.cmp (.immediate 0), false), (.breq 2, true), (.brne 3, true)] ∧
    (branching.run 9).2.statistics.steps.toNat = 3 ∧
    ((branching.run 9).2.statistics.count .branchTaken).toNat = 1 ∧
    ((branching.run 9).2.statistics.count .branchNotTaken).toNat = 1 ∧
    ((branching.run 9).2.statistics.count .load).toNat = 0 := by
  have chronicle : branching.chronicle 9 =
      [(.cmp (.immediate 0), false), (.breq 2, true), (.brne 3, true)] := by decide +kernel
  have room (c : Statistics.Class) :
      (branching.statistics.count c).toNat + branching.retiredIn c 9 < 2 ^ 64 := by
    rw [retiredIn, chronicle]
    cases c <;> decide
  obtain ⟨steps, classes, -⟩ := statistics_law (m := branching) (n := 9)
    (by rw [chronicle]; decide) room
  refine ⟨chronicle, ?_, ?_, ?_, ?_⟩
  · rw [steps, chronicle]
    rfl
  · rw [classes, retiredIn, chronicle]
    rfl
  · rw [classes, retiredIn, chronicle]
    rfl
  · rw [classes, retiredIn, chronicle]
    rfl

end Machine
end Accumulator
