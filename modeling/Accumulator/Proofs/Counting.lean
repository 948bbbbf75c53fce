import Mathlib.Algebra.Group.Nat.Defs
import Accumulator.Proofs.Run

/-!
# What the counters count

The step counter of a machine moves by the number of instructions that its run retires
(`toNat_steps_after`), so the subtraction of two counters counts steps and not loop iterations: a
halt is in it, a fault is not. A record is `Balanced` when its steps are the sum of its classes.
Retiring one more instruction keeps that as long as the step counter has room, since no class can
be fuller than all of them together.
-/

namespace Accumulator

namespace Statistics

variable {s : Statistics} {i : Instruction} {taken : Bool}

/-- An instruction of any class counts as one step. -/
theorem steps_record (s : Statistics) (i : Instruction) (taken : Bool) :
    (s.record i taken).steps = s.steps + 1 := by
  cases i <;> cases taken <;> rfl

/-- Only the halt is counted among the halts. -/
theorem halts_record (h : i ≠ .halt) : (s.record i taken).halts = s.halts := by
  cases i with
  | halt => exact absurd rfl h
  | _ => cases taken <;> rfl

/-- The instructions counted by class. -/
def classes (s : Statistics) : Nat :=
  s.loads.toNat + s.stores.toNat + s.arithmetic.toNat + s.comparisons.toNat + s.bitwise.toNat +
    s.updates.toNat + s.branchesTaken.toNat + s.branchesNotTaken.toNat + s.jumps.toNat +
    s.halts.toNat + s.noops.toNat

/-- Every instruction counted is in one class. -/
def Balanced (s : Statistics) : Prop :=
  s.steps.toNat = s.classes

/-- The two classes of branches fit in 64 bits together, since the steps do. -/
theorem Balanced.branches_lt (h : s.Balanced) :
    s.branchesTaken.toNat + s.branchesNotTaken.toNat < 2 ^ 64 := by
  have steps := s.steps.toNat_lt
  rw [h, classes] at steps
  omega

/-- A counter with room counts without wrapping around. -/
theorem toNat_succ {c : UInt64} (h : c.toNat + 1 < 2 ^ 64) : (c + 1).toNat = c.toNat + 1 := by
  rw [UInt64.toNat_add]
  exact Nat.mod_eq_of_lt h

/-- One more instruction is one more step and one more in its class. -/
theorem Balanced.record (h : s.Balanced) (room : s.steps.toNat + 1 < 2 ^ 64)
    (i : Instruction) (taken : Bool) : (s.record i taken).Balanced := by
  unfold Balanced classes at *
  rw [steps_record, toNat_succ room, h]
  cases i with
  | breq _ | brne _ =>
    cases taken <;> simp only [Statistics.record, Bool.false_eq_true, if_true, if_false] <;>
      rw [toNat_succ] <;> omega
  | halt | load _ | store _ | add _ | sub _ | cmp _ | jump _ | bitwise _ _ | bit _ | zero _ | inc _
  | dec _ | noop _ =>
    simp only [Statistics.record]
    rw [toNat_succ] <;> omega

end Statistics

namespace Machine

variable {m : Machine} {k n : Nat}

/-- A step moves the step counter just in case it retires an instruction. -/
theorem steps_next (m : Machine) :
    m.next.statistics.steps = m.statistics.steps + .ofNat (if m.retires then 1 else 0) := by
  cases live : m.phase.isTerminal with
  | true => simp [retires_of_terminal live, next_of_terminal live]
  | false =>
    obtain ⟨i, hi⟩ | ⟨f, hf⟩ := m.executes_or_blocked
    · rw [if_pos (retires_of_executes live hi)]
      rw [next_eq_retired live hi]
      exact Statistics.steps_record _ _ _
    · simp [retires_of_blocked hf, next_of_blocked live hf]

/-- The step counter moves by the number of retired instructions. -/
theorem steps_after (n : Nat) (m : Machine) :
    (m.after n).statistics.steps = m.statistics.steps + .ofNat (m.retirements n) := by
  induction n generalizing m with
  | zero => simp [retirements]
  | succ n ih =>
    rw [after_succ, ih, steps_next, retirements, UInt64.ofNat_add, UInt64.add_assoc]

/-- The step counter, as long as it has room for what a run retires. -/
theorem toNat_steps_after (room : m.statistics.steps.toNat + m.retirements n < 2 ^ 64) :
    (m.after n).statistics.steps.toNat = m.statistics.steps.toNat + m.retirements n := by
  rw [steps_after, UInt64.toNat_add, UInt64.toNat_ofNat']
  omega

end Machine
end Accumulator
