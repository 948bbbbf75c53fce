import Accumulator.Proofs.StrictRun

/-!
# No request has a violation

Whatever is asked of a simulator and of the machine in it, with whatever addresses, images, bounds
and budgets, no operation leaves its domain, as long as fewer than `2 ^ 64` instructions retire in
total. Reads, writes, loads and ranges need nothing for that. The counters need the law of a
machine's life, which holds of a new simulator and is kept by each request: a step counter is never
above what retired, and the classes never above the step counter, the two classes of branches
together included. A machine on its own is that of a simulator asked for nothing but calls and looks
(`machine_behind_calls`), so this is said of it as well.
-/

namespace Accumulator

namespace Machine

variable {m : Machine}

/-! ## Calls -/

/-- The machine with an image placed in its memory. -/
def strictLoad (m : Machine) (image : List UInt16) (origin : Address) :
    StrictExcept Failure Machine :=
  return { m with memory := ← m.memory.strictLoad image origin }

/-- The machine with one word of memory replaced. -/
def strictWrite (m : Machine) (a : Address) (word : UInt16) : StrictExcept Fault Machine :=
  return { m with memory := ← m.memory.strictWrite a word }

/-- A call: its answer and the machine behind it. -/
def Call.strictPerform (m : Machine) : Call → Strict (Answer × Machine)
  | .load image origin => do
    match ← (m.strictLoad image origin).run with
    | .ok m' => return (.placed (.ok ()), m')
    | .error e => return (.placed (.error e), m)
  | .write a word => do
    match ← (m.strictWrite a word).run with
    | .ok m' => return (.written (.ok ()), m')
    | .error f => return (.written (.error f), m)
  | .setAccumulator word => return (.done, m.setAccumulator word)
  | .setPc pc => return (.done, m.setPc pc)
  | .setTracing tracing => return (.done, m.setTracing tracing)
  | .step => do
    let (status, m') ← m.strictStep
    return (.status status, m')
  | .run budget => do
    let (status, m') ← m.strictRun budget
    return (.status status, m')
  | .runUntilHalt budget => do
    let (answer, m') ← m.strictRunUntilHalt budget
    return (.halted answer, m')
  | .reset => return (.done, m.reset)

/-- A load of a machine has no violation. -/
theorem strictLoad_eq (m : Machine) (image : List UInt16) (origin : Address) :
    m.strictLoad image origin = .of (m.load image origin) := by
  rw [strictLoad, Memory.strictLoad_eq]
  exact StrictExcept.of_bind _ _

theorem strictWrite_eq (m : Machine) (a : Address) (word : UInt16) :
    m.strictWrite a word = .of (m.write a word) := by
  rw [strictWrite, Memory.strictWrite_eq]
  exact StrictExcept.of_bind _ _

/-- **A call has no violation** if the counters have room for what it retires. -/
theorem Lawful.strictPerform_eq (h : m.Lawful) (c : Call)
    (room : m.statistics.steps.toNat + c.retired m < 2 ^ 64) :
    c.strictPerform m = .ok (c.answer m, c.perform m) := by
  cases c with
  | load image origin =>
    rw [Call.strictPerform, strictLoad_eq, StrictExcept.run_of, Call.answer, Call.perform]
    cases m.load image origin <;> rfl
  | write a word =>
    rw [Call.strictPerform, strictWrite_eq, StrictExcept.run_of, Call.answer, Call.perform]
    cases m.write a word <;> rfl
  | step =>
    rw [Call.strictPerform, strictStep_eq h.balanced room]
    rfl
  | run n =>
    rw [Call.strictPerform, h.strictRun_eq room]
    rfl
  | runUntilHalt n =>
    rw [Call.strictPerform, h.strictRunUntilHalt_eq room]
    rfl
  | setAccumulator _ | setPc _ | setTracing _ | reset => rfl

/-- A call keeps the law, and moves the step counter by no more than it retires. -/
theorem Lawful.call (h : m.Lawful) (c : Call)
    (room : m.statistics.steps.toNat + c.retired m < 2 ^ 64) :
    (c.perform m).Lawful ∧
      (c.perform m).statistics.steps.toNat ≤ m.statistics.steps.toNat + c.retired m := by
  have before : History.Lawful ⟨m, m.status, m.statistics.steps.toNat⟩ := ⟨h, Nat.le_refl _, rfl⟩
  have behind := before.call c room
  exact ⟨behind.machine, behind.steps⟩

end Machine

namespace Simulator

variable {s : Simulator}

/-! ## Requests -/

/-- A load: its answer and the simulator behind it. -/
def strictLoad (s : Simulator) (image : List UInt16) :
    Strict (Except Failure Unit × Simulator) := do
  let machine := s.machine.reset
  match ← (machine.strictLoad image s.origin).run with
  | .ok loaded => return (.ok (), { s with machine := loaded.setPc s.origin })
  | .error failure => return (.error failure, { s with machine })

/-- A run: its answer and the simulator behind it. -/
def strictRun (s : Simulator) : Strict (Except Failure Completion × Simulator) := do
  let (result, machine) ← s.machine.strictRunUntilHalt s.maxSteps.toNat
  return (result.map fun steps => ⟨steps, machine.registers.acc, machine.registers.pc⟩,
    { s with machine })

namespace Request

/-- A request: its answer and the simulator behind it. A look at a register or a setting computes
nothing. -/
def strictPerform (s : Simulator) : Request → Strict (Answer × Simulator)
  | .load image => do
    let (outcome, s') ← s.strictLoad image
    return (.placed outcome, s')
  | .run => do
    let (outcome, s') ← s.strictRun
    return (.completed outcome, s')
  | .call c => do
    let (answer, machine) ← c.strictPerform s.machine
    return (answer, { s with machine })
  | .read a => return (.word (← (s.machine.memory.strictRead a .read).run), s)
  | .range start stop => return (.words (← s.machine.memory.strictRange start stop), s)
  | .status => return (.status s.machine.status, s)
  | .registers => return (.registers s.machine.registers, s)
  | .phase => return (.phase s.machine.phase, s)
  | .statistics => return (.statistics s.machine.statistics, s)
  | .tracing => return (.tracing s.machine.tracing, s)
  | .origin => return (.origin s.origin, s)
  | .maxSteps => return (.maxSteps s.maxSteps, s)

/-- The number of instructions that a request retires. -/
def retired (s : Simulator) : Request → Nat
  | .run => s.machine.retirements s.maxSteps.toNat
  | .call c => c.retired s.machine
  | _ => 0

end Request

/-- A sequence of requests: the answers to them and the simulator behind them. -/
def strictBehind : List Request → Simulator → Strict (List Answer × Simulator)
  | [], s => return ([], s)
  | r :: rest, s => do
    let (answer, s') ← r.strictPerform s
    let (answers, last) ← strictBehind rest s'
    return (answer :: answers, last)

/-- The number of instructions that a sequence of requests retires. -/
def retired : List Request → Simulator → Nat
  | [], _ => 0
  | r :: rest, s => r.retired s + retired rest (r.perform s)

/-- A load of a simulator has no violation. -/
theorem strictLoad_eq (s : Simulator) (image : List UInt16) :
    s.strictLoad image = .ok (s.load image) := by
  simp only [strictLoad, Machine.strictLoad_eq, StrictExcept.run_of, load]
  cases s.machine.reset.load image s.origin <;> rfl

/-- A run of a simulator has no violation if the counters have room for what it retires. -/
theorem strictRun_eq (h : s.machine.Lawful)
    (room : s.machine.statistics.steps.toNat + s.machine.retirements s.maxSteps.toNat < 2 ^ 64) :
    s.strictRun = .ok s.run := by
  rw [strictRun, h.strictRunUntilHalt_eq room]
  rfl

/-- A load leaves a machine that is ready and has no counts. -/
theorem machine_load (s : Simulator) (image : List UInt16) :
    (s.load image).2.machine.phase = .ready ∧ (s.load image).2.machine.statistics = {} := by
  by_cases fits : Memory.Fits s.origin image.length
  · rw [load_of_fits fits]
    exact ⟨rfl, rfl⟩
  · rw [load_of_not_fits fits]
    exact ⟨rfl, rfl⟩

namespace Request

/-- **A request has no violation** if the counters have room for what it retires. -/
theorem strictPerform_eq (r : Request) (h : s.machine.Lawful)
    (room : s.machine.statistics.steps.toNat + r.retired s < 2 ^ 64) :
    r.strictPerform s = .ok (r.answer s, r.perform s) := by
  cases r with
  | load image =>
    rw [strictPerform, strictLoad_eq]
    rfl
  | run =>
    rw [strictPerform, strictRun_eq h room]
    rfl
  | call c =>
    rw [strictPerform, h.strictPerform_eq c room]
    rfl
  | read a =>
    rw [strictPerform, Memory.strictRead_eq]
    rfl
  | range start stop =>
    rw [strictPerform, Memory.strictRange_eq]
    rfl
  | status | registers | phase | statistics | tracing | origin | maxSteps => rfl

/-- A request keeps the law, and moves the step counter by no more than it retires. -/
theorem lawful_perform (r : Request) (h : s.machine.Lawful)
    (room : s.machine.statistics.steps.toNat + r.retired s < 2 ^ 64) :
    (r.perform s).machine.Lawful ∧ (r.perform s).machine.statistics.steps.toNat ≤
      s.machine.statistics.steps.toNat + r.retired s := by
  cases r with
  | load image =>
    obtain ⟨ready, none⟩ := machine_load s image
    refine ⟨(Machine.lawful_reset s.machine).congr ready none, ?_⟩
    rw [perform, none]
    exact Nat.zero_le _
  | run => exact h.call (.runUntilHalt s.maxSteps.toNat) room
  | call c => exact h.call c room
  | read _ | range _ _ | status | registers | phase | statistics | tracing | origin | maxSteps =>
    exact ⟨h, Nat.le_refl _⟩

end Request

/-- **Requests have no violation** one after the other, and keep the law, if the counters have room
for what all of them retire. -/
theorem strictBehind_eq (requests : List Request) (h : s.machine.Lawful)
    (room : s.machine.statistics.steps.toNat + retired requests s < 2 ^ 64) :
    strictBehind requests s = .ok (answers requests s, s.behind requests) ∧
      (s.behind requests).machine.Lawful := by
  induction requests generalizing s with
  | nil => exact ⟨rfl, h⟩
  | cons r rest ih =>
    rw [retired] at room
    have first : s.machine.statistics.steps.toNat + r.retired s < 2 ^ 64 := by omega
    obtain ⟨lawful, steps⟩ := r.lawful_perform h first
    obtain ⟨later, last⟩ := ih lawful (by omega)
    refine ⟨?_, last⟩
    rw [strictBehind, r.strictPerform_eq h first]
    simp only [bind, Except.bind, later]
    rfl

/-- **No request has a violation.** Any requests to a new simulator, with any arguments, are
answered as they should be by strict operations alone: every cell number is that of a cell, an image
is copied onto a segment of its own length, the count of a run is not negative and no counter comes
round, as long as fewer than `2 ^ 64` instructions retire in total. Behind them, and so at any time
between them, the two branch counters can be added up. -/
theorem safety_law (c : Config) (requests : List Request)
    (room : retired requests (new c) < 2 ^ 64) :
    strictBehind requests (new c) = .ok (answers requests (new c), (new c).behind requests) ∧
    ((new c).behind requests).machine.statistics.strictBranches =
      .ok ((new c).behind requests).machine.statistics.branches := by
  have lawful : (new c).machine.Lawful := (Machine.lawful_reset Machine.new).congr rfl rfl
  have start : (new c).machine.statistics.steps.toNat = 0 := rfl
  obtain ⟨requested, last⟩ := strictBehind_eq requests lawful (by rwa [start, Nat.zero_add])
  exact ⟨requested, last.balanced.strictBranches_eq⟩

/-- A run from outside memory, images that do not fit, ranges out of order and past the end, and a
branch to the last cell with a load through itself. -/
def wild : List Request :=
  [.call (.setPc ⟨0xFFFF⟩), .call (.runUntilHalt 2), .load [0x32FF], .call (.load [1, 2] ⟨255⟩),
    .call (.load [] ⟨256⟩), .call (.load [0x14FF] ⟨255⟩), .range 9 3, .range 0 (2 ^ 64 - 1), .run,
    .call (.write ⟨0xFFFF⟩ 7), .read ⟨256⟩]

/-- All of it is answered, and the branch is counted. -/
theorem safety_law_wild :
    retired wild (new { maxSteps := 3 }) < 2 ^ 64 ∧
    strictBehind wild (new { maxSteps := 3 }) =
      .ok (answers wild (new { maxSteps := 3 }), (new { maxSteps := 3 }).behind wild) ∧
    ((new { maxSteps := 3 }).behind wild).machine.statistics.strictBranches = .ok 1 := by
  have count : retired wild (new { maxSteps := 3 }) = 1 := by decide +kernel
  have room : retired wild (new { maxSteps := 3 }) < 2 ^ 64 := by
    rw [count]
    decide
  obtain ⟨answered, branches⟩ := safety_law { maxSteps := 3 } wild room
  refine ⟨room, answered, branches.trans (congrArg _ ?_)⟩
  decide +kernel

end Simulator
end Accumulator
