import Accumulator.Machine.Step

/-!
# Runs with a budget

A run steps until the machine stops or its budget of steps is spent. A run with no budget executes
nothing and reports the status that the machine has, so `continue` always means that the budget ran
out and that the machine can be run further.
-/

namespace Accumulator.Machine

/-- Executes at most `budget` steps. -/
def run : Nat → Machine → Status × Machine
  | 0, m => (m.status, m)
  | budget + 1, m =>
    match m.step with
    | (.continue, m') => run budget m'
    | (stopped, m') => (stopped, m')

/-- Runs like `run` and answers with the number of instructions retired, the halt included. Anything
but a halt is a failure; the machine comes back in either case. -/
def runUntilHalt (budget : Nat) (m : Machine) : Except Failure UInt64 × Machine :=
  let (status, m') := m.run budget
  let steps := m'.statistics.steps - m.statistics.steps
  match status with
  | .halted => (.ok steps, m')
  | .fault f => (.error (.fault f), m')
  | .continue => (.error (.budgetSpent steps), m')

end Accumulator.Machine
