import Accumulator.Proofs.Counting

/-!
# The instructions that a run retires

`Machine.trail` lists the instructions that a run retires, in order, each with the machine that
executed it; it has as many members as the step counter moves by (`length_trail`). Some parts of a
machine are set by retired instructions and by nothing else: `SetBy` says of a part and a rule for
what an instruction sets it to that a step follows the rule, and `SetBy.after` that a run then
leaves what the last instruction of its trail that sets the part has set it to.
-/

namespace Accumulator

/-- An instruction that retired, with the machine that executed it. -/
structure Retirement where
  machine : Machine
  instruction : Instruction

namespace Machine

variable {m : Machine} {i : Instruction} {e : Retirement} {f : Fault} {n : Nat}

/-- The instruction that the next step retires, if it retires one. -/
def retirement? (m : Machine) : Option Retirement :=
  if m.retires then m.instruction.toOption.map (Retirement.mk m) else none

/-- The instructions that a run of at most `budget` steps retires, in order. -/
def trail : Nat → Machine → List Retirement
  | 0, _ => []
  | budget + 1, m => m.retirement?.toList ++ trail budget m.next

/-! ## One step -/

/-- A step that executes an instruction retires that one. -/
theorem retirement?_of_executes (live : m.phase.isTerminal = false) (h : m.Executes i) :
    m.retirement? = some ⟨m, i⟩ := by
  have instruction := instruction_of_decode h.inside h.decodes
  rw [retirement?, if_pos (retires_of_executes live h), instruction]
  rfl

/-- A step that faults retires nothing. -/
theorem retirement?_of_blocked (h : m.Blocked f) : m.retirement? = none := by
  rw [retirement?, retires_of_blocked h]
  rfl

/-- A machine that has stopped retires nothing. -/
theorem retirement?_of_terminal (h : m.phase.isTerminal = true) : m.retirement? = none := by
  rw [retirement?, retires_of_terminal h]
  rfl

/-- A step retires one instruction or none, as `retires` tells. -/
theorem length_retirement? (m : Machine) :
    m.retirement?.toList.length = if m.retires then 1 else 0 := by
  cases live : m.phase.isTerminal with
  | true =>
    rw [retirement?_of_terminal live, retires_of_terminal live]
    rfl
  | false =>
    obtain ⟨i, hi⟩ | ⟨f, hf⟩ := m.executes_or_blocked
    · rw [retirement?_of_executes live hi, retires_of_executes live hi]
      rfl
    · rw [retirement?_of_blocked hf, retires_of_blocked hf]
      rfl

/-- A trail has one member for each retired instruction. -/
theorem length_trail (n : Nat) (m : Machine) : (m.trail n).length = m.retirements n := by
  induction n generalizing m with
  | zero => rfl
  | succ n ih => rw [trail, List.length_append, length_retirement?, ih, retirements]

/-- Memory behind an executed instruction is what the instruction makes of it, a halt included. -/
theorem next_memory_of_executes (live : m.phase.isTerminal = false) (h : m.Executes i) :
    m.next.memory = i.memory m.registers m.memory := by
  rw [next_eq_retired live h]
  rfl

/-- The registers behind an executed instruction, with the program counter at the target of its
flow. -/
theorem next_registers_of_executes (live : m.phase.isTerminal = false) (h : m.Executes i) :
    m.next.registers = { i.registers m.registers m.memory with
      pc := (i.flow m.registers).target m.registers.pc } := by
  rw [next_eq_retired live h]
  rfl

/-! ## Parts that only retired instructions set -/

/-- The part `get` of a machine is set by retired instructions alone: the instruction `e` sets it
to `set? e`, or leaves it if there is no such value. -/
structure SetBy {α : Type} (get : Machine → α) (set? : Retirement → Option α) : Prop where
  /-- A fault, which changes the phase alone, leaves the part. -/
  fault : ∀ m phase, get { m with phase } = get m
  retire : ∀ m i, m.phase.isTerminal = false → m.Executes i →
    get m.next = (set? ⟨m, i⟩).getD (get m)

variable {α : Type} {get : Machine → α} {set? : Retirement → Option α}

/-- One step sets the part to what the instruction that it retires sets it to, if it retires one
that does. -/
theorem SetBy.next (h : SetBy get set?) (m : Machine) :
    get m.next = (m.retirement?.bind set?).getD (get m) := by
  cases live : m.phase.isTerminal with
  | true =>
    rw [retirement?_of_terminal live, next_of_terminal live]
    rfl
  | false =>
    obtain ⟨i, hi⟩ | ⟨f, hf⟩ := m.executes_or_blocked
    · rw [retirement?_of_executes live hi]
      exact h.retire m i live hi
    · rw [retirement?_of_blocked hf, next_of_blocked live hf]
      exact h.fault m _

/-- What the instructions of a trail set a part to, the first one taken apart. -/
theorem filterMap_trail_succ (set? : Retirement → Option α) (n : Nat) (m : Machine) :
    (m.trail (n + 1)).filterMap set? =
      (m.retirement?.bind set?).toList ++ (m.next.trail n).filterMap set? := by
  rw [trail, List.filterMap_append]
  cases m.retirement? with
  | none => rfl
  | some e => cases h : set? e <;> simp [h]

/-- **The last instruction that sets a part decides it.** What was there before the run stays if no
instruction of the trail sets it. -/
theorem SetBy.after (h : SetBy get set?) (n : Nat) (m : Machine) :
    get (m.after n) = ((m.trail n).filterMap set?).getLastD (get m) := by
  induction n generalizing m with
  | zero => rfl
  | succ n ih =>
    rw [after_succ, ih, h.next, filterMap_trail_succ]
    cases m.retirement?.bind set? with
    | none => rfl
    | some a => rw [Option.getD_some, Option.toList_some, List.singleton_append, List.getLastD_cons]

end Machine
end Accumulator
