import Accumulator.Machine.Log
import Accumulator.Simulator

/-!
# What a simulator puts on the log

Loading an image is an event if it succeeds. A run logs what its machine logs, and then how it
ended.
-/

namespace Accumulator.Simulator

/-- The events of loading an image. -/
def loadEvents (s : Simulator) (image : List UInt16) : List Event :=
  match (s.load image).1 with
  | .ok _ => [.imageLoaded s.origin image.length]
  | .error _ => []

/-- The events of a run, its outcome last. -/
def runEvents (s : Simulator) : List Event :=
  s.machine.runEvents s.maxSteps.toNat ++
    match s.run with
    | (.ok c, _) => [.runComplete c.steps c.accumulator c.pc]
    | (.error failure, s') =>
      if failure.isFault then [.runFaulted failure s'.machine.registers.pc]
      else [.runStopped failure s'.machine.statistics.steps]

end Accumulator.Simulator
