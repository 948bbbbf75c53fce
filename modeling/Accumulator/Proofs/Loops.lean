import Mathlib.Dynamics.PeriodicPts.Defs
import Accumulator.Proofs.Budget

/-!
# Machines that come back to where they were

Execution reads the registers and the memory, and whether the machine has stopped. `Machine.bare`
forgets all else: the counters, the trace switch and whether an instruction was executed before. A
step commutes with forgetting (`bare_next`), so two machines with the same bare machine run in the
same way (`run_of_bare_eq`), and a machine whose bare machine comes back after some steps goes
through the same steps for ever. No budget makes such a loop look like the end of a program
(`run_of_loop`).
-/

namespace Accumulator.Machine

variable {m m' : Machine} {i : Instruction} {f : Fault} {k n : Nat}

/-! ## What execution does not look at -/

/-- The machine without its counters and its trace switch, and as if it had executed something. -/
def bare (m : Machine) : Machine where
  registers := m.registers
  memory := m.memory
  phase := if m.phase = .ready then .running else m.phase

theorem isTerminal_bare (m : Machine) : m.bare.phase.isTerminal = m.phase.isTerminal := by
  cases hp : m.phase <;> simp [bare, hp, Phase.isTerminal]

/-- A machine has the status of the bare one: ready and running machines both go on. -/
theorem status_bare (m : Machine) : m.bare.status = m.status := by
  cases hp : m.phase <;> simp [bare, status, hp]

/-- Two machines that have not stopped differ in nothing else if registers and memory are the
same. -/
theorem bare_eq (live : m.phase.isTerminal = false) (live' : m'.phase.isTerminal = false)
    (registers : m'.registers = m.registers) (memory : m'.memory = m.memory) :
    m'.bare = m.bare := by
  have running {x : Machine} (h : x.phase.isTerminal = false) : x.bare.phase = .running := by
    cases hp : x.phase with
    | ready | running => simp [bare, hp]
    | halted | faulted f => rw [hp] at h; cases h
  have phase := (running live').trans (running live).symm
  unfold bare at *
  dsimp only at phase
  rw [registers, memory, phase]

/-- Whether a machine executes an instruction depends on registers and memory alone. -/
theorem Executes.bare (h : m.Executes i) : m.bare.Executes i :=
  ⟨h.inside, h.decodes, h.tame⟩

/-- So does whether it is about to fault. -/
theorem Blocked.bare (h : m.Blocked f) : m.bare.Blocked f := by
  cases h with
  | fetch outside => exact .fetch outside
  | opcode inside decodes => exact .opcode (m := m.bare) inside decodes
  | pointer inside decodes hp wild => exact .pointer (m := m.bare) inside decodes hp wild

/-- **A step does not look at what the bare machine forgets.** -/
theorem bare_next (m : Machine) : m.next.bare = m.bare.next.bare := by
  cases live : m.phase.isTerminal with
  | true =>
    have live' : m.bare.phase.isTerminal = true := by rw [isTerminal_bare, live]
    rw [next_of_terminal live, next_of_terminal live']
    cases hp : m.phase <;> simp [bare, hp]
  | false =>
    have live' : m.bare.phase.isTerminal = false := by rw [isTerminal_bare, live]
    obtain ⟨i, hi⟩ | ⟨f, hf⟩ := m.executes_or_blocked
    · rw [next_eq_retired live hi, next_eq_retired live' hi.bare]
      rfl
    · rw [next_of_blocked live hf, next_of_blocked live' hf.bare]
      rfl

/-- Forgetting carries the steps of a machine to steps of the bare machine. -/
theorem semiconj_bare : Function.Semiconj bare next fun m => m.next.bare :=
  bare_next

/-- A run of a machine is the iterated step of the bare one. -/
theorem bare_after (n : Nat) (m : Machine) :
    (m.after n).bare = (fun m => m.next.bare)^[n] m.bare :=
  semiconj_bare.iterate_right n m

/-- The bare machine retires an instruction just in case the machine does. -/
theorem retires_bare (m : Machine) : m.bare.retires = m.retires := by
  have executes (i : Instruction) : m.bare.Executes i ↔ m.Executes i :=
    ⟨fun h => ⟨h.inside, h.decodes, h.tame⟩, Executes.bare⟩
  rw [Bool.eq_iff_iff, retires_iff, retires_iff, isTerminal_bare]
  simp only [executes]

/-! ## Two machines that are the same when bare -/

/-- Two machines that are the same when bare stay so. -/
theorem bare_after_congr (h : m'.bare = m.bare) (n : Nat) :
    (m'.after n).bare = (m.after n).bare := by
  rw [bare_after, bare_after, h]

/-- They retire the same number of instructions. -/
theorem retirements_congr (h : m'.bare = m.bare) (n : Nat) :
    m'.retirements n = m.retirements n := by
  induction n with
  | zero => rfl
  | succ n ih =>
    rw [retirements_succ', retirements_succ', ih, ← retires_bare (m'.after n),
      ← retires_bare (m.after n), bare_after_congr h]

/-- **Registers and memory decide a run**: what it reports and retires, the registers and the memory
it leaves, and what it answers as a run up to the halt. -/
theorem run_of_bare_eq (h : m'.bare = m.bare) (n : Nat) :
    (m'.run n).1 = (m.run n).1 ∧
    (m'.run n).2.registers = (m.run n).2.registers ∧
    (m'.run n).2.memory = (m.run n).2.memory ∧
    m'.retirements n = m.retirements n ∧
    (m'.runUntilHalt n).1 = (m.runUntilHalt n).1 := by
  have after := bare_after_congr h n
  have retirements := retirements_congr h n
  have status : (m'.after n).status = (m.after n).status := by
    rw [← status_bare, after, status_bare]
  rw [run_eq, run_eq, runUntilHalt_eq, runUntilHalt_eq, status, retirements]
  refine ⟨rfl, congrArg (·.registers) after, congrArg (·.memory) after, rfl, ?_⟩
  cases (m.after n).status <;> rfl

/-! ## Loops -/

/-- A machine that comes back after `k` steps is where it was after the remainder by `k`. -/
theorem bare_after_mod (h : (m.after k).bare = m.bare) (n : Nat) :
    (m.after n).bare = (m.after (n % k)).bare := by
  have periodic : Function.IsPeriodicPt (fun m : Machine => m.next.bare) k m.bare := by
    rw [Function.IsPeriodicPt, Function.IsFixedPt, ← bare_after, h]
  rw [bare_after, bare_after, periodic.iterate_mod_apply]

/-- **A loop is never taken for the end.** If a machine goes on for `k` steps, one at least, and has
its registers and its memory back behind them, then it goes on under every budget `n`, retires `n`
instructions, and has the registers and the memory that it has behind the remainder of `n` by `k`; a
run up to the halt spends its budget. This is so because execution depends on registers and memory
alone: any two machines that have not stopped and agree on these run alike. -/
theorem run_of_loop (live : m.phase.isTerminal = false) (positive : 1 ≤ k)
    (goes : (m.run k).1 = .continue) (registers : (m.run k).2.registers = m.registers)
    (memory : (m.run k).2.memory = m.memory) :
    (∀ n, (m.run n).1 = .continue ∧ m.retirements n = n ∧
      (m.run n).2.registers = (m.run (n % k)).2.registers ∧
      (m.run n).2.memory = (m.run (n % k)).2.memory ∧
      (m.statistics.steps.toNat + n < 2 ^ 64 →
        (m.run n).2.statistics.steps.toNat = m.statistics.steps.toNat + n) ∧
      (m.runUntilHalt n).1 = .error (.budgetSpent (.ofNat n))) ∧
    ∀ x y : Machine, x.phase.isTerminal = false → y.phase.isTerminal = false →
      y.registers = x.registers → y.memory = x.memory → ∀ n,
        (y.run n).1 = (x.run n).1 ∧
        (y.run n).2.registers = (x.run n).2.registers ∧
        (y.run n).2.memory = (x.run n).2.memory ∧
        y.retirements n = x.retirements n ∧
        (y.runUntilHalt n).1 = (x.runUntilHalt n).1 := by
  simp only [run_eq] at goes registers memory
  have goesOn : (m.after k).phase.isTerminal = false := by
    rw [← isTerminal_status, goes]
    rfl
  have back := bare_eq live goesOn registers memory
  refine ⟨fun n => ?_, fun x y hx hy registers memory n => ?_⟩
  · have around := bare_after_mod back n
    -- the remainder lies within the first time around, where the machine goes on
    have going : (m.after n).phase.isTerminal = false := by
      rw [← isTerminal_bare, around, isTerminal_bare]
      exact live_of_le goesOn (Nat.le_of_lt (Nat.mod_lt n positive))
    have retirements := retirements_of_live going
    rw [run_eq, run_eq, runUntilHalt_of_live going]
    refine ⟨status_of_live going, retirements, congrArg (·.registers) around,
      congrArg (·.memory) around, fun room => ?_, rfl⟩
    have count := toNat_steps_after (m := m) (n := n) (by omega)
    rwa [retirements] at count
  · exact run_of_bare_eq (bare_eq hx hy registers memory) n

/-- A cell is counted up and down again for ever. -/
def seesaw : Machine :=
  { new with memory := ((Memory.zeros.put 0 0x6210).put 1 0x6410).put 2 0x4000 }

theorem run_of_loop_seesaw :
    (seesaw.run 3).1 = .continue ∧ (seesaw.run 3).2.memory = seesaw.memory ∧
    (seesaw.run 1).2.memory ≠ seesaw.memory ∧
    (seesaw.runUntilHalt 1000000).1 = .error (.budgetSpent 1000000) ∧
    (seesaw.run 1000000).2.memory = (seesaw.run 1).2.memory := by
  have goes : (seesaw.run 3).1 = .continue := by decide +kernel
  have memory : (seesaw.run 3).2.memory = seesaw.memory := Memory.ext_toList (by decide +kernel)
  have moved : (seesaw.run 1).2.memory ≠ seesaw.memory := fun same =>
    absurd (congrArg Memory.toList same) (by decide +kernel)
  obtain ⟨runs, -⟩ := run_of_loop (m := seesaw) (k := 3) rfl (by decide) goes
    (by decide +kernel) memory
  obtain ⟨-, -, -, around, -, spent⟩ := runs 1000000
  rw [show 1000000 % 3 = 1 by decide] at around
  exact ⟨goes, memory, moved, spent, around⟩

end Accumulator.Machine
