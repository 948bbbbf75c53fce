import Mathlib.Data.List.Induction
import Accumulator.Proofs.Pieces
import Accumulator.Proofs.Resume
import Accumulator.Proofs.Stopped
import Accumulator.Proofs.Trail

/-!
# The program counter

The program counter is sixteen bits wide and memory has 256 words. An instruction retires only if it
was fetched, so on a program counter that names a cell; behind it stands the next cell, the operand
byte of a jump or, after a halt, the same cell (`pc_next_of_executes`). So execution never wraps
around, and what an instruction leaves is at most the number behind the last cell. Only a setter
puts it elsewhere, and there it stays until the next reset or load, since nothing retires
(`pc_behind`, `program_counter_law`).
-/

namespace Accumulator

/-- The cell that control is transferred to with the flag as it is, if the instruction is a jump or
a branch that is taken. -/
def Instruction.jump? (flag : Bool) : Instruction → Option UInt8
  | .jump t => some t
  | .breq t => if flag then some t else none
  | .brne t => if flag then none else some t
  | _ => none

/-- Where control goes is decided by the flag alone. -/
theorem Instruction.flow_eq (r : Registers) (i : Instruction) :
    i.flow r = match i.jump? r.flag with
      | some t => .jump (.ofByte t)
      | none => if i = .halt then .halt else .next := by
  cases i with
  | breq t | brne t => cases h : r.flag <;> simp [flow, jump?, h]
  | halt | load _ | store _ | add _ | sub _ | cmp _ | jump _ | bitwise _ _ | bit _ | zero _ | inc _
  | dec _ | noop _ => simp [flow, jump?]

namespace Machine

variable {m : Machine} {i : Instruction} {e : Retirement} {n : Nat}

/-! ## One step -/

/-- The program counter behind an instruction: the target of a jump or of a branch taken, the
instruction itself behind a halt, and else the next cell, without a wrap. -/
theorem pc_next_of_executes (live : m.phase.isTerminal = false) (h : m.Executes i) :
    m.next.registers.pc.value.toNat = match i.jump? m.registers.flag with
      | some t => t.toNat
      | none => m.registers.pc.value.toNat + if i = .halt then 0 else 1 := by
  rw [next_registers_of_executes live h, Instruction.flow_eq]
  cases i.jump? m.registers.flag with
  | some t => exact Memory.toNat_ofByte t
  | none =>
    dsimp only
    split
    · rfl
    · exact Memory.toNat_next h.inside

/-- A machine that retires an instruction executes it. -/
theorem executes_of_retirement? (h : m.retirement? = some e) :
    m.phase.isTerminal = false ∧ e.machine = m ∧ m.Executes e.instruction := by
  cases live : m.phase.isTerminal with
  | true =>
    rw [retirement?_of_terminal live] at h
    cases h
  | false =>
    obtain ⟨i, hi⟩ | ⟨f, hf⟩ := m.executes_or_blocked
    · rw [retirement?_of_executes live hi] at h
      cases h
      exact ⟨rfl, rfl, hi⟩
    · rw [retirement?_of_blocked hf] at h
      cases h

/-- Behind an instruction that retired the program counter is at the end of memory at most. -/
theorem pc_next_le (h : m.retires = true) :
    m.next.registers.pc.value.toNat ≤ memoryWords := by
  obtain ⟨live, i, hi⟩ := retires_iff.1 h
  have inside := hi.inside
  rw [pc_next_of_executes live hi]
  cases i.jump? m.registers.flag with
  | some t => exact Nat.le_of_lt t.toNat_lt
  | none =>
    dsimp only
    split
    · exact Nat.le_of_lt inside
    · exact inside

/-- A step that retires nothing leaves the registers. -/
theorem registers_next_of_not_retires (h : m.retires = false) : m.next.registers = m.registers := by
  cases live : m.phase.isTerminal with
  | true => rw [next_of_terminal live]
  | false =>
    obtain ⟨i, hi⟩ | ⟨f, hf⟩ := m.executes_or_blocked
    · rw [retires_of_executes live hi] at h
      cases h
    · rw [next_of_blocked live hf]

/-! ## Runs -/

/-- A run that retires nothing leaves the program counter; any other leaves it at the end of memory
at most. -/
theorem pc_after (n : Nat) (m : Machine) :
    (m.retirements n = 0 ∧ (m.after n).registers.pc = m.registers.pc) ∨
      (m.after n).registers.pc.value.toNat ≤ memoryWords := by
  induction n with
  | zero => exact .inl ⟨rfl, rfl⟩
  | succ n ih =>
    rw [retirements_succ', after_succ']
    cases h : (m.after n).retires with
    | true => exact .inr (pc_next_le h)
    | false =>
      rw [registers_next_of_not_retires h]
      exact ih

/-- At the end of memory the next fetch fails, so a run of any length reports that fault. -/
theorem run_of_pc_eq (live : m.phase.isTerminal = false)
    (h : m.registers.pc.value.toNat = memoryWords) (n : Nat) :
    m.run (n + 1) = (.fault (.outOfBounds m.registers.pc .fetch),
      { m with phase := .faulted (.outOfBounds m.registers.pc .fetch) }) := by
  have next := next_of_blocked live (.fetch (Nat.le_of_eq h.symm))
  have stopped : m.next.phase.isTerminal = true := by rw [next]; rfl
  rw [run_eq, after_succ, after_of_terminal stopped, next]
  rfl

/-! ## Calls and requests -/

/-- The call neither sets the program counter nor resets the machine, and nothing retires in it. -/
def Call.LeavesPc (m : Machine) : Call → Prop
  | .setPc _ | .reset => False
  | c => c.retired m = 0

/-- A call leaves the program counter at the end of memory at most, or sets it, or leaves it as it
was. -/
theorem Call.pc_perform (c : Call) (m : Machine) :
    (c.perform m).registers.pc.value.toNat ≤ memoryWords ∨
    c = .setPc (c.perform m).registers.pc ∨
    (c.LeavesPc m ∧ (c.perform m).registers.pc = m.registers.pc) := by
  have runs {n : Nat} (retired : c.retired m = m.retirements n)
      (leaves : c.retired m = 0 → c.LeavesPc m) (perform : c.perform m = m.after n) :
      (c.perform m).registers.pc.value.toNat ≤ memoryWords ∨
      c = .setPc (c.perform m).registers.pc ∨
      (c.LeavesPc m ∧ (c.perform m).registers.pc = m.registers.pc) := by
    rw [perform]
    obtain ⟨none, same⟩ | bound := pc_after n m
    · exact .inr (.inr ⟨leaves (retired.trans none), same⟩)
    · exact .inl bound
  cases c with
  | reset => exact .inl (Nat.zero_le _)
  | setPc pc => exact .inr (.inl rfl)
  | step => exact runs rfl id rfl
  | run n => exact runs rfl id (by rw [perform, run_eq])
  | runUntilHalt n => exact runs rfl id (runUntilHalt_snd n m)
  | load image origin =>
    obtain ⟨memory, h⟩ := Call.perform_load image origin m
    exact .inr (.inr ⟨rfl, by rw [h]⟩)
  | write a word =>
    obtain ⟨memory, h⟩ := Call.perform_write a word m
    exact .inr (.inr ⟨rfl, by rw [h]⟩)
  | setAccumulator _ | setTracing _ => exact .inr (.inr ⟨rfl, rfl⟩)

end Machine

namespace Simulator

variable {c : Config} {pc : Address} {requests : List Request}

/-- The request neither sets the program counter nor resets the machine, as a load does, and
nothing retires in it. -/
def Request.LeavesPc (s : Simulator) : Request → Prop
  | .load _ => False
  | .run => s.machine.retirements s.maxSteps.toNat = 0
  | .call c => c.LeavesPc s.machine
  | _ => True

/-- Among requests to a new simulator the last one to set the program counter set it to `pc`, and
since then nothing retired and there was neither a reset nor a load. -/
inductive LastSet (c : Config) (pc : Address) : List Request → Prop
  | set (earlier : List Request) : LastSet c pc (earlier ++ [.call (.setPc pc)])
  | later {requests : List Request} {r : Request} : LastSet c pc requests →
      r.LeavesPc ((new c).behind requests) → LastSet c pc (requests ++ [r])

/-- A request leaves the program counter at the end of memory at most, or sets it, or leaves it as
it was. -/
theorem Request.pc_perform (r : Request) (s : Simulator) :
    (r.perform s).machine.registers.pc.value.toNat ≤ memoryWords ∨
    r = .call (.setPc (r.perform s).machine.registers.pc) ∨
    (r.LeavesPc s ∧ (r.perform s).machine.registers.pc = s.machine.registers.pc) := by
  cases r with
  | load image =>
    left
    by_cases h : Memory.Fits s.origin image.length
    · rw [perform, load_of_fits h]
      exact Nat.le_of_lt h.1
    · rw [perform, load_of_not_fits h]
      exact Nat.zero_le _
  | run =>
    rw [perform, run_snd]
    obtain ⟨none, same⟩ | bound := s.machine.pc_after s.maxSteps.toNat
    · exact .inr (.inr ⟨none, same⟩)
    · exact .inl bound
  | call c =>
    obtain bound | set | ⟨leaves, same⟩ := c.pc_perform s.machine
    · exact .inl bound
    · exact .inr (.inl (congrArg Request.call set))
    · exact .inr (.inr ⟨leaves, same⟩)
  | read _ | range _ _ | status | registers | phase | statistics | tracing | origin | maxSteps =>
    exact .inr (.inr ⟨trivial, rfl⟩)

theorem behind_concat (requests : List Request) (r : Request) (s : Simulator) :
    s.behind (requests ++ [r]) = r.perform (s.behind requests) :=
  List.foldl_append

/-- **Behind any requests the program counter is at the end of memory at most, or as it was last
set.** -/
theorem pc_behind (c : Config) (requests : List Request) :
    ((new c).behind requests).machine.registers.pc.value.toNat ≤ memoryWords ∨
      LastSet c ((new c).behind requests).machine.registers.pc requests := by
  induction requests using List.reverseRecOn with
  | nil => exact .inl (Nat.zero_le _)
  | append_singleton requests r ih =>
    rw [behind_concat]
    obtain bound | set | ⟨leaves, same⟩ := r.pc_perform ((new c).behind requests)
    · exact .inl bound
    · generalize (r.perform ((new c).behind requests)).machine.registers.pc = pc at set
      subst set
      exact .inr (.set requests)
    · rw [same]
      exact ih.imp_right fun last => last.later leaves

/-- A machine on its own is that of a simulator which is asked for nothing but calls. -/
theorem machine_behind_calls (calls : List Machine.Call) :
    ((new {}).behind (calls.map .call)).machine = Machine.new.behind calls := by
  induction calls using List.reverseRecOn with
  | nil => rfl
  | append_singleton calls c ih =>
    rw [List.map_append, List.map_singleton, behind_concat, Machine.behind, List.foldl_append]
    exact congrArg c.perform ih

/-- **The bound of the program counter.** Behind any requests to a new simulator, and behind any
calls on a new machine, the program counter is at most the number behind the last cell, unless it is
what it was last set to and nothing retired, no reset and no load came since. A halt that retires
leaves it, a jump or a branch taken sets it to the target, which is at most 255, and every other
instruction adds one to it as a natural number. A machine that has not stopped and has it behind the
last cell faults on the fetch there, if it is run at all. -/
theorem program_counter_law :
    (∀ (c : Config) (requests : List Request),
      ((new c).behind requests).machine.registers.pc.value.toNat ≤ memoryWords ∨
        LastSet c ((new c).behind requests).machine.registers.pc requests) ∧
    (∀ calls : List Machine.Call,
      (Machine.new.behind calls).registers.pc.value.toNat ≤ memoryWords ∨
        LastSet {} (Machine.new.behind calls).registers.pc (calls.map .call)) ∧
    (∀ (m : Machine) (e : Retirement), m.retirement? = some e →
      (e.instruction = .halt → m.step.2.registers.pc = m.registers.pc) ∧
      (∀ t, e.instruction.jump? m.registers.flag = some t →
        m.step.2.registers.pc.value.toNat = t.toNat ∧ t.toNat ≤ 255) ∧
      (e.instruction ≠ .halt → e.instruction.jump? m.registers.flag = none →
        m.step.2.registers.pc.value.toNat = m.registers.pc.value.toNat + 1)) ∧
    ∀ m : Machine, m.phase.isTerminal = false → m.registers.pc.value.toNat = memoryWords →
      m.step.1 = .fault (.outOfBounds m.registers.pc .fetch) ∧
      ∀ n f, (m.run n).1 = .fault f → f = .outOfBounds m.registers.pc .fetch := by
  refine ⟨pc_behind, fun calls => ?_, fun m e h => ?_, fun m live h => ⟨?_, fun n f hf => ?_⟩⟩
  · rw [← machine_behind_calls]
    exact pc_behind {} _
  · obtain ⟨live, -, executes⟩ := Machine.executes_of_retirement? h
    have pc := Machine.pc_next_of_executes live executes
    refine ⟨fun halt => ?_, fun t ht => ?_, fun halt none => ?_⟩
    · rw [halt] at executes
      exact congrArg (·.registers.pc) (Machine.next_of_halt live executes)
    · rw [ht] at pc
      exact ⟨pc, Nat.le_of_lt_succ t.toNat_lt⟩
    · rw [none] at pc
      dsimp only at pc
      rwa [if_neg halt] at pc
  · rw [Machine.step_eq_run, Machine.run_of_pc_eq live h]
  · cases n with
    | zero =>
      rw [Machine.run_eq, Machine.after_zero, Machine.status_of_live live] at hf
      cases hf
    | succ n =>
      rw [Machine.run_of_pc_eq live h] at hf
      cases hf
      rfl

/-- A program counter set to `$12C` is still there behind a run, which faults on it. A new machine
retires the halt at `$00` and stays there; at `$100` it faults. -/
theorem program_counter_law_outside :
    LastSet {} ⟨300⟩ [.call (.setPc ⟨300⟩), .run] ∧
    Machine.new.retirement? = some ⟨Machine.new, .halt⟩ ∧
    Machine.new.step.2.registers.pc = ⟨0⟩ ∧
    (Machine.new.setPc ⟨256⟩).step.1 = .fault (.outOfBounds ⟨256⟩ .fetch) := by
  obtain ⟨bound, -, moves, fetch⟩ := program_counter_law
  have pc : ((new {}).behind [.call (.setPc ⟨300⟩), .run]).machine.registers.pc = ⟨300⟩ := by
    decide +kernel
  have last := (bound {} [.call (.setPc ⟨300⟩), .run]).resolve_left (by rw [pc]; decide)
  have retires : Machine.new.retirement? = some ⟨Machine.new, .halt⟩ :=
    Machine.retirement?_of_executes rfl ⟨by decide, rfl, rfl⟩
  refine ⟨pc ▸ last, retires, (moves Machine.new _ retires).1 rfl, ?_⟩
  exact (fetch (Machine.new.setPc ⟨256⟩) rfl rfl).1

end Simulator
end Accumulator
