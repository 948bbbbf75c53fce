import Accumulator.Proofs.Budget

/-!
# Calls on a machine

Whoever holds a machine can load and write its memory, set its registers and its trace switch, step
it, run it and reset it. `Call` is one such call and `History` what a sequence of them leaves: the
machine, together with two things that the machine does not keep, the status last reported and the
number of instructions retired so far. A call does one of three things to the state of a machine's
life (`Call.cases`): it resets it, it is a number of steps, or it leaves phase and statistics alone.
-/

namespace Accumulator.Machine

/-- A call that changes a machine, with its arguments. -/
inductive Call where
  | load (image : List UInt16) (origin : Address)
  | write (a : Address) (word : UInt16)
  | setAccumulator (word : UInt16)
  | setPc (pc : Address)
  | setTracing (tracing : Bool)
  | step
  | run (budget : Nat)
  | runUntilHalt (budget : Nat)
  | reset

/-- The status that the answer of a run up to the halt stands for. -/
def statusOfAnswer : Except Failure UInt64 → Status
  | .ok _ => .halted
  | .error (.fault f) => .fault f
  | .error _ => .continue

namespace Call

/-- The machine after a call; a refused load or write leaves it as it was. -/
def perform (m : Machine) : Call → Machine
  | .load image origin =>
    match m.load image origin with
    | .ok m' => m'
    | .error _ => m
  | .write a word =>
    match m.write a word with
    | .ok m' => m'
    | .error _ => m
  | .setAccumulator word => m.setAccumulator word
  | .setPc pc => m.setPc pc
  | .setTracing tracing => m.setTracing tracing
  | .step => m.step.2
  | .run budget => (m.run budget).2
  | .runUntilHalt budget => (m.runUntilHalt budget).2
  | .reset => m.reset

/-- The status reported by the latest step or run since the last reset, after one more call. -/
def latest (m : Machine) (before : Option Status) : Call → Option Status
  | .step => some m.step.1
  | .run budget => some (m.run budget).1
  | .runUntilHalt budget => some (statusOfAnswer (m.runUntilHalt budget).1)
  | .reset => none
  | _ => before

/-- The number of instructions that a call retires. -/
def retired (m : Machine) : Call → Nat
  | .step => m.retirements 1
  | .run budget | .runUntilHalt budget => m.retirements budget
  | _ => 0

end Call

/-- What a sequence of calls on a new machine comes to. -/
structure History where
  machine : Machine := new
  /-- What the latest step or run since the last reset reported. -/
  latest : Option Status := none
  /-- The number of instructions retired, resets or not. -/
  retired : Nat := 0

/-- A history with one more call. -/
def History.call (h : History) (c : Call) : History where
  machine := c.perform h.machine
  latest := c.latest h.machine h.latest
  retired := h.retired + c.retired h.machine

/-- The history of a sequence of calls. -/
def history (calls : List Call) : History :=
  calls.foldl History.call {}

theorem history_concat (calls : List Call) (c : Call) :
    history (calls ++ [c]) = (history calls).call c :=
  List.foldl_append

/-! ## What a call can do -/

/-- The answer of a run until the halt tells the status that the machine is left in. -/
theorem statusOfAnswer_runUntilHalt (n : Nat) (m : Machine) :
    statusOfAnswer (m.runUntilHalt n).1 = (m.after n).status := by
  rw [runUntilHalt_eq]
  cases (m.after n).status <;> rfl

/-- A load changes memory alone, refused or not. -/
theorem Call.perform_load (image : List UInt16) (origin : Address) (m : Machine) :
    ∃ memory, (Call.load image origin).perform m = { m with memory } := by
  simp only [Call.perform, Machine.load]
  cases m.memory.load image origin with
  | error e => exact ⟨m.memory, rfl⟩
  | ok memory => exact ⟨memory, rfl⟩

/-- A write changes memory alone, refused or not. -/
theorem Call.perform_write (a : Address) (word : UInt16) (m : Machine) :
    ∃ memory, (Call.write a word).perform m = { m with memory } := by
  simp only [Call.perform, Machine.write]
  cases m.memory.write a word with
  | error f => exact ⟨m.memory, rfl⟩
  | ok memory => exact ⟨memory, rfl⟩

/-- A call that is a number of steps. -/
structure Call.Runs (c : Call) (m : Machine) (n : Nat) : Prop where
  perform : c.perform m = m.after n
  latest : ∀ before, c.latest m before = some (m.after n).status
  retired : c.retired m = m.retirements n

/-- A call that has nothing to do with a machine's life. -/
structure Call.Keeps (c : Call) (m : Machine) : Prop where
  phase : (c.perform m).phase = m.phase
  statistics : (c.perform m).statistics = m.statistics
  latest : ∀ before, c.latest m before = before
  retired : c.retired m = 0

/-- **What a call can do to a machine's life.** -/
theorem Call.cases (c : Call) (m : Machine) :
    c = .reset ∨ (∃ n, c.Runs m n) ∨ c.Keeps m := by
  cases c with
  | reset => exact .inl rfl
  | step =>
    refine .inr (.inl ⟨1, rfl, fun _ => ?_, rfl⟩)
    rw [Call.latest, step_eq]
    rfl
  | run n =>
    refine .inr (.inl ⟨n, ?_, fun _ => ?_, rfl⟩)
    · rw [Call.perform, run_eq]
    · rw [Call.latest, run_eq]
  | runUntilHalt n =>
    refine .inr (.inl ⟨n, ?_, fun _ => ?_, rfl⟩)
    · rw [Call.perform, runUntilHalt_snd]
    · rw [Call.latest, statusOfAnswer_runUntilHalt]
  | load image origin =>
    obtain ⟨memory, h⟩ := Call.perform_load image origin m
    exact .inr (.inr ⟨by rw [h], by rw [h], fun _ => rfl, rfl⟩)
  | write a word =>
    obtain ⟨memory, h⟩ := Call.perform_write a word m
    exact .inr (.inr ⟨by rw [h], by rw [h], fun _ => rfl, rfl⟩)
  | setAccumulator word => exact .inr (.inr ⟨rfl, rfl, fun _ => rfl, rfl⟩)
  | setPc pc => exact .inr (.inr ⟨rfl, rfl, fun _ => rfl, rfl⟩)
  | setTracing tracing => exact .inr (.inr ⟨rfl, rfl, fun _ => rfl, rfl⟩)

end Accumulator.Machine
