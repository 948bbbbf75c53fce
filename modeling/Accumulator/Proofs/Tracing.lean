import Mathlib.Data.List.Induction
import Accumulator.Proofs.Calls

/-!
# The trace switch takes no part

Whether a machine is traced is kept beside its state and read by the log alone. So a step, and with
it a run and every call, commutes with setting the switch (`next_setTracing`,
`Call.perform_setTracing`), and the switch is as it was last set (`Call.tracing_perform`).
-/

namespace Accumulator.Machine

variable {m : Machine} {i : Instruction} {f : Fault}

/-! ## Steps and runs -/

/-- The trace switch does not matter to what is executed. -/
theorem Executes.setTracing (h : m.Executes i) (t : Bool) : (m.setTracing t).Executes i :=
  ⟨h.inside, h.decodes, h.tame⟩

/-- Nor does it matter to faults. -/
theorem Blocked.setTracing (h : m.Blocked f) (t : Bool) : (m.setTracing t).Blocked f := by
  cases h with
  | fetch outside => exact .fetch outside
  | opcode inside decodes => exact .opcode (m := m.setTracing t) inside decodes
  | pointer inside decodes hp wild => exact .pointer (m := m.setTracing t) inside decodes hp wild

/-- **A step leaves the switch and does not look at it.** -/
theorem next_setTracing (m : Machine) (t : Bool) :
    (m.setTracing t).next = m.next.setTracing t := by
  cases live : m.phase.isTerminal with
  | true =>
    have live' : (m.setTracing t).phase.isTerminal = true := live
    rw [next_of_terminal live, next_of_terminal live']
  | false =>
    have live' : (m.setTracing t).phase.isTerminal = false := live
    obtain ⟨i, hi⟩ | ⟨f, hf⟩ := m.executes_or_blocked
    · rw [next_eq_retired live hi, next_eq_retired live' (hi.setTracing t)]
      rfl
    · rw [next_of_blocked live hf, next_of_blocked live' (hf.setTracing t)]
      rfl

/-- A run keeps the switch as it was set, and is otherwise the same. -/
theorem after_setTracing (n : Nat) (m : Machine) (t : Bool) :
    (m.setTracing t).after n = (m.after n).setTracing t := by
  induction n generalizing m with
  | zero => rfl
  | succ n ih => rw [after_succ, next_setTracing, ih, after_succ]

theorem run_setTracing (n : Nat) (m : Machine) (t : Bool) :
    (m.setTracing t).run n = ((m.run n).1, (m.run n).2.setTracing t) := by
  rw [run_eq, run_eq, after_setTracing]
  rfl

theorem runUntilHalt_setTracing (n : Nat) (m : Machine) (t : Bool) :
    (m.setTracing t).runUntilHalt n =
      ((m.runUntilHalt n).1, (m.runUntilHalt n).2.setTracing t) := by
  simp only [runUntilHalt, run_setTracing]
  cases (m.run n).1 <;> rfl

/-- A load keeps the switch as it was set, and is otherwise the same. -/
theorem load_setTracing (image : List UInt16) (origin : Address) (m : Machine) (t : Bool) :
    (m.setTracing t).load image origin = (m.load image origin).map (·.setTracing t) := by
  simp only [load, setTracing]
  cases m.memory.load image origin <;> rfl

theorem write_setTracing (a : Address) (word : UInt16) (m : Machine) (t : Bool) :
    (m.setTracing t).write a word = (m.write a word).map (·.setTracing t) := by
  simp only [write, setTracing]
  cases m.memory.write a word <;> rfl

/-! ## Calls -/

/-- The switch behind a call, given what it was before. -/
def Call.tracing (before : Bool) : Call → Bool
  | .setTracing tracing => tracing
  | _ => before

/-- A call leaves the same machine but for the switch, whatever the switch was. -/
theorem Call.perform_setTracing (c : Call) (m : Machine) (t : Bool) :
    c.perform (m.setTracing t) = (c.perform m).setTracing (c.tracing t) := by
  cases c with
  | load image origin =>
    rw [perform, perform, load_setTracing]
    cases m.load image origin <;> rfl
  | write a word =>
    rw [perform, perform, write_setTracing]
    cases m.write a word <;> rfl
  | setAccumulator _ | setPc _ | setTracing _ | reset => rfl
  | step => exact next_setTracing m t
  | run n => simp only [perform, run_setTracing, tracing]
  | runUntilHalt n => simp only [perform, runUntilHalt_setTracing, tracing]

/-- The switch is as it was last set. -/
theorem Call.tracing_perform (c : Call) (m : Machine) :
    (c.perform m).tracing = c.tracing m.tracing :=
  congrArg Machine.tracing (c.perform_setTracing m m.tracing)

/-- The switch of a machine behind any calls is as it was last set, or off as on a new machine. -/
theorem tracing_history (calls : List Call) :
    (history calls).machine.tracing = calls.foldl Call.tracing false := by
  induction calls using List.reverseRecOn with
  | nil => rfl
  | append_singleton calls c ih =>
    rw [history_concat, List.foldl_append, ← ih]
    exact c.tracing_perform _

end Accumulator.Machine
