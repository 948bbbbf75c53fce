import Accumulator.Proofs.Tracing
import Accumulator.Simulator

/-!
# Requests to a simulator

Whoever holds a simulator can load and run it, make any call on the machine in it, and look at both
of them. `Request` is one of these, `Request.answer` what it is answered with and `Request.perform`
the simulator behind it; `answers` is what a whole sequence of requests is answered with. The trace
switch changes no answer but the one that tells what it is (`answers_setTracing`), and nothing
behind the requests but itself (`behind_setTracing`).
-/

namespace Accumulator

/-- What a request is answered with. -/
inductive Answer where
  /-- The request has no answer. -/
  | done
  | status (status : Status)
  /-- The outcome of placing an image. -/
  | placed (outcome : Except Failure Unit)
  /-- The outcome of writing a word. -/
  | written (outcome : Except Fault Unit)
  /-- The number of instructions retired up to a halt. -/
  | halted (outcome : Except Failure UInt64)
  | completed (outcome : Except Failure Completion)
  | word (outcome : Except Fault UInt16)
  | words (range : Option (List UInt16))
  | registers (registers : Registers)
  | phase (phase : Phase)
  | statistics (statistics : Statistics)
  | tracing (tracing : Bool)
  | origin (origin : Address)
  | maxSteps (maxSteps : UInt64)

/-- What a call on a machine is answered with. -/
def Machine.Call.answer (m : Machine) : Machine.Call → Answer
  | .load image origin => .placed ((m.load image origin).map fun _ => ())
  | .write a word => .written ((m.write a word).map fun _ => ())
  | .step => .status m.step.1
  | .run budget => .status (m.run budget).1
  | .runUntilHalt budget => .halted (m.runUntilHalt budget).1
  | .setAccumulator _ | .setPc _ | .setTracing _ | .reset => .done

namespace Simulator

/-- A request to a simulator or to the machine in it. -/
inductive Request where
  /-- Load an image at the simulator's origin. -/
  | load (image : List UInt16)
  /-- Run within the simulator's budget. -/
  | run
  /-- A call on the machine. -/
  | call (call : Machine.Call)
  | read (a : Address)
  | range (start stop : Nat)
  | status
  | registers
  | phase
  | statistics
  | tracing
  | origin
  | maxSteps

namespace Request

/-- The simulator behind a request; to look at it changes nothing. -/
def perform (s : Simulator) : Request → Simulator
  | .load image => (s.load image).2
  | .run => s.run.2
  | .call c => { s with machine := c.perform s.machine }
  | _ => s

/-- What the request is answered with. -/
def answer (s : Simulator) : Request → Answer
  | .load image => .placed (s.load image).1
  | .run => .completed s.run.1
  | .call c => c.answer s.machine
  | .read a => .word (s.machine.read a)
  | .range start stop => .words (s.machine.memory.range start stop)
  | .status => .status s.machine.status
  | .registers => .registers s.machine.registers
  | .phase => .phase s.machine.phase
  | .statistics => .statistics s.machine.statistics
  | .tracing => .tracing s.machine.tracing
  | .origin => .origin s.origin
  | .maxSteps => .maxSteps s.maxSteps

/-- The trace switch behind a request, given what it was before. -/
def tracingBehind (before : Bool) : Request → Bool
  | .call c => c.tracing before
  | _ => before

end Request

/-- The simulator behind a sequence of requests. -/
def behind (requests : List Request) (s : Simulator) : Simulator :=
  requests.foldl Request.perform s

/-- What a sequence of requests is answered with, one after the other. -/
def answers : List Request → Simulator → List Answer
  | [], _ => []
  | r :: rest, s => r.answer s :: answers rest (r.perform s)

/-- The simulator with the trace switch of its machine set. -/
def setTracing (s : Simulator) (tracing : Bool) : Simulator :=
  { s with machine := s.machine.setTracing tracing }

variable {s : Simulator} {r : Request} {requests : List Request} {t : Bool}

/-! ## The trace switch -/

/-- A load does not look at the trace switch, and leaves it as it is. -/
theorem load_setTracing (image : List UInt16) (s : Simulator) (t : Bool) :
    (s.setTracing t).load image = ((s.load image).1, (s.load image).2.setTracing t) := by
  have reset : (s.setTracing t).machine.reset = s.machine.reset.setTracing t := rfl
  have origin : (s.setTracing t).origin = s.origin := rfl
  simp only [load, reset, origin, Machine.load_setTracing]
  cases s.machine.reset.load image s.origin <;> rfl

/-- Nor does a run. -/
theorem run_setTracing (s : Simulator) (t : Bool) :
    (s.setTracing t).run = (s.run.1, s.run.2.setTracing t) := by
  have machine : (s.setTracing t).machine = s.machine.setTracing t := rfl
  have maxSteps : (s.setTracing t).maxSteps = s.maxSteps := rfl
  simp only [run, machine, maxSteps, Machine.runUntilHalt_setTracing]
  rfl

/-- A call on a machine is answered in the same way whatever the switch. -/
theorem answer_call_setTracing (c : Machine.Call) (m : Machine) (t : Bool) :
    c.answer (m.setTracing t) = c.answer m := by
  cases c with
  | load image origin =>
    simp only [Machine.Call.answer, Machine.load_setTracing]
    cases m.load image origin <;> rfl
  | write a word =>
    simp only [Machine.Call.answer, Machine.write_setTracing]
    cases m.write a word <;> rfl
  | step =>
    simp only [Machine.Call.answer, Machine.step_eq, Machine.next_setTracing]
    rfl
  | run n => simp only [Machine.Call.answer, Machine.run_setTracing]
  | runUntilHalt n => simp only [Machine.Call.answer, Machine.runUntilHalt_setTracing]
  | setAccumulator _ | setPc _ | setTracing _ | reset => rfl

namespace Request

/-- A request leaves the same simulator but for the switch, whatever the switch was. -/
theorem perform_setTracing (r : Request) (s : Simulator) (t : Bool) :
    r.perform (s.setTracing t) = (r.perform s).setTracing (r.tracingBehind t) := by
  cases r with
  | load image =>
    rw [perform, perform, load_setTracing]
    rfl
  | run =>
    rw [perform, perform, run_setTracing]
    rfl
  | call c =>
    have h := c.perform_setTracing s.machine t
    simp only [perform, Simulator.setTracing, tracingBehind, h]
  | read _ | range _ _ | status | registers | phase | statistics | tracing | origin | maxSteps =>
    rfl

/-- A request but the one for the switch is answered in the same way whatever the switch. -/
theorem answer_setTracing (h : r ≠ .tracing) (s : Simulator) (t : Bool) :
    r.answer (s.setTracing t) = r.answer s := by
  cases r with
  | tracing => exact absurd rfl h
  | load image => rw [answer, answer, load_setTracing]
  | run => rw [answer, answer, run_setTracing]
  | call c => exact answer_call_setTracing c s.machine t
  | read _ | range _ _ | status | registers | phase | statistics | origin | maxSteps => rfl

end Request

/-- **The switch changes no answer** but the one that tells what it is. -/
theorem answers_setTracing (h : .tracing ∉ requests) (s : Simulator) (t : Bool) :
    answers requests (s.setTracing t) = answers requests s := by
  induction requests generalizing s t with
  | nil => rfl
  | cons r rest ih =>
    obtain ⟨hr, hrest⟩ := List.ne_and_not_mem_of_not_mem_cons h
    rw [answers, answers, Request.answer_setTracing (Ne.symm hr), Request.perform_setTracing,
      ih hrest]

/-- Requests leave the same simulator but for the switch, whatever the switch was. -/
theorem behind_setTracing (requests : List Request) (s : Simulator) (t : Bool) :
    (s.setTracing t).behind requests =
      (s.behind requests).setTracing (requests.foldl Request.tracingBehind t) := by
  induction requests generalizing s t with
  | nil => rfl
  | cons r rest ih =>
    have step (s : Simulator) : s.behind (r :: rest) = (r.perform s).behind rest := rfl
    rw [step, step, Request.perform_setTracing, ih, List.foldl_cons]

/-- The switch behind requests is as it was last set. -/
theorem tracing_behind (requests : List Request) (s : Simulator) :
    (s.behind requests).machine.tracing =
      requests.foldl Request.tracingBehind s.machine.tracing :=
  congrArg (·.machine.tracing) (behind_setTracing requests s s.machine.tracing)

end Simulator
end Accumulator
