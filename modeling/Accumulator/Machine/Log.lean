import Accumulator.Log
import Accumulator.Machine.Run

/-!
# What a machine puts on the log

The events of a step are read off the machine before it: the instruction it decodes, if tracing is
on, and then whether it stops. The log of a run is the events of its steps in order. So the log is
a view of an execution and no part of it. A machine that has stopped logs nothing more.
-/

namespace Accumulator.Machine

/-- The trace event of the next instruction: there is one if tracing is on and the word at the
program counter can be fetched and decodes, whether or not its execution will succeed. -/
def traceEvents (m : Machine) : List Event :=
  if m.tracing then
    match m.fetch, m.instruction with
    | .ok word, .ok i => [.execute m.registers.pc word i m.registers.acc]
    | _, _ => []
  else []

/-- The events of one step. -/
def stepEvents (m : Machine) : List Event :=
  if m.phase.isTerminal then []
  else m.traceEvents ++
    match m.step with
    | (.continue, _) => []
    | (.halted, m') => [.halted m'.registers.pc m'.statistics.steps]
    | (.fault f, m') => [.faulted f m'.statistics.steps]

/-- Collects the events of a run in front of those of earlier steps, the latest first. -/
def runEventsOnto : Nat → Machine → List Event → List Event
  | 0, _, earlier => earlier
  | budget + 1, m, earlier =>
    let events := m.stepEvents.reverse ++ earlier
    match m.step with
    | (.continue, m') => runEventsOnto budget m' events
    | _ => events

/-- The events of a run of at most `budget` steps, in order. -/
def runEvents (budget : Nat) (m : Machine) : List Event :=
  (runEventsOnto budget m []).reverse

end Accumulator.Machine
