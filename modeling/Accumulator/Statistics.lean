import Accumulator.Instruction

/-!
# Execution statistics

Counts of the instructions that a machine retired, by class. An instruction that faults does not
retire and is not counted. Counters are 64 bits wide.
-/

namespace Accumulator

/-- Counts of retired instructions. -/
structure Statistics where
  /-- All instructions. -/
  steps : UInt64 := 0
  loads : UInt64 := 0
  stores : UInt64 := 0
  /-- Additions and subtractions. -/
  arithmetic : UInt64 := 0
  /-- Instructions that write the flag. -/
  comparisons : UInt64 := 0
  /-- Bitwise operations, shifts and rotations. -/
  bitwise : UInt64 := 0
  /-- Cell updates: zero, increment, decrement. -/
  updates : UInt64 := 0
  /-- Conditional branches that jumped. -/
  branchesTaken : UInt64 := 0
  /-- Conditional branches that fell through. -/
  branchesNotTaken : UInt64 := 0
  jumps : UInt64 := 0
  halts : UInt64 := 0
  noops : UInt64 := 0
deriving DecidableEq, Repr

namespace Statistics

/-- All conditional branches. -/
def branches (s : Statistics) : UInt64 :=
  s.branchesTaken + s.branchesNotTaken

/-- The counts after one more instruction; `taken` says whether it jumped and matters for
conditional branches only. -/
def record (s : Statistics) (i : Instruction) (taken : Bool) : Statistics :=
  let s := { s with steps := s.steps + 1 }
  match i with
  | .halt => { s with halts := s.halts + 1 }
  | .load _ => { s with loads := s.loads + 1 }
  | .store _ => { s with stores := s.stores + 1 }
  | .add _ | .sub _ => { s with arithmetic := s.arithmetic + 1 }
  | .cmp _ | .bit _ => { s with comparisons := s.comparisons + 1 }
  | .bitwise _ _ => { s with bitwise := s.bitwise + 1 }
  | .zero _ | .inc _ | .dec _ => { s with updates := s.updates + 1 }
  | .noop _ => { s with noops := s.noops + 1 }
  | .breq _ | .brne _ =>
    if taken then { s with branchesTaken := s.branchesTaken + 1 }
    else { s with branchesNotTaken := s.branchesNotTaken + 1 }
  | .jump _ => { s with jumps := s.jumps + 1 }

end Statistics
end Accumulator
