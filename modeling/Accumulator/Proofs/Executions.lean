import Accumulator.Machine.Log
import Accumulator.Proofs.Faults
import Accumulator.Proofs.Tracing

/-!
# The executions on the log

The log of a run says of which instruction it tells before that instruction is executed, so the
executions on the log are not the retired instructions: a word that decodes is announced even if a
pointer of its instruction turns out to be wild. `Machine.executions` picks the announcements out of
the log of a run. They follow the run step by step (`executions_succ`), each announces the
instruction at hand (`getElem?_executions`), and there are as many as retired instructions and one
more if the run ended in a wild fault (`length_executions`).
-/

namespace Accumulator

/-- Does the event announce the execution of an instruction? -/
def Event.isExecution : Event → Bool
  | .execute .. => true
  | _ => false

/-- Is the fault that of a decoded instruction, a read or a write outside memory? -/
def Fault.isWild : Fault → Bool
  | .outOfBounds _ .fetch | .invalidOpcode _ _ => false
  | .outOfBounds _ .read | .outOfBounds _ .write => true

/-- Has the machine stopped on the wild fault of a decoded instruction? -/
def Phase.isWild : Phase → Bool
  | .faulted f => f.isWild
  | .ready | .running | .halted => false

namespace Machine

variable {m : Machine} {i : Instruction} {f : Fault} {k n : Nat} {e : Event}

/-- The machine goes on with an instruction that it has decoded. Whether the instruction retires is
open. -/
structure Decodes (m : Machine) (i : Instruction) : Prop where
  live : m.phase.isTerminal = false
  inside : m.registers.pc.value.toNat < memoryWords
  decodes : Instruction.decode? m.word = some i

/-- The event that announces the execution of an instruction. -/
def execution (m : Machine) (i : Instruction) : Event :=
  .execute m.registers.pc m.word i m.registers.acc

/-- The announcements on the log of a run, in order. -/
def executions (n : Nat) (m : Machine) : List Event :=
  (m.runEvents n).filter Event.isExecution

/-! ## One step -/

/-- An instruction that is executed was decoded. -/
theorem Executes.decoded (live : m.phase.isTerminal = false) (h : m.Executes i) : m.Decodes i :=
  ⟨live, h.inside, h.decodes⟩

/-- A machine that is about to fault has decoded an instruction just in case the fault is wild. -/
theorem Blocked.exists_decodes_iff (live : m.phase.isTerminal = false) (h : m.Blocked f) :
    (∃ i, m.Decodes i) ↔ f.isWild = true := by
  cases h with
  | fetch outside => exact iff_of_false (fun ⟨i, hi⟩ => by have := hi.inside; omega) nofun
  | opcode inside decodes =>
    exact iff_of_false (fun ⟨i, hi⟩ => by cases decodes.symm.trans hi.decodes) nofun
  | @pointer i p access inside decodes hp wild =>
    refine iff_of_true ⟨i, live, inside, decodes⟩ ?_
    obtain ⟨rfl, -⟩ | ⟨rfl, -⟩ := Instruction.pointer?_eq_some_iff.1 hp <;> rfl

/-- With the switch on, the step announces the instruction that it has decoded. -/
theorem traceEvents_of_decodes (on : m.tracing = true) (h : m.Decodes i) :
    m.traceEvents = [m.execution i] := by
  have fetched : m.fetch = .ok m.word := Memory.read_of_lt h.inside
  rw [traceEvents, if_pos on, fetched, instruction_of_decode h.inside h.decodes]
  rfl

/-- A step that decodes nothing announces nothing, whatever the switch. -/
theorem traceEvents_of_not_decodes (live : m.phase.isTerminal = false)
    (h : ¬ ∃ i, m.Decodes i) : m.traceEvents = [] := by
  rw [traceEvents]
  split
  · obtain ⟨i, hi⟩ | ⟨f, hf⟩ := m.executes_or_blocked
    · exact absurd ⟨i, hi.decoded live⟩ h
    · cases hf with
      | fetch outside =>
        have fetched : m.fetch = .error _ := Memory.read_of_le outside
        rw [fetched]
      | opcode inside decodes =>
        have fetched : m.fetch = .ok m.word := Memory.read_of_lt inside
        have undecoded : m.instruction = .error (.invalidOpcode m.registers.pc m.word) := by
          simp only [instruction, fetched, bind, Except.bind, decodes]
          rfl
        rw [fetched, undecoded]
      | pointer inside decodes => exact absurd ⟨_, live, inside, decodes⟩ h
  · rfl

/-- Of the events of a step the announcement alone is one of an execution. -/
theorem filter_stepEvents (live : m.phase.isTerminal = false) :
    m.stepEvents.filter Event.isExecution = m.traceEvents := by
  have announced : m.traceEvents.filter Event.isExecution = m.traceEvents := by
    rw [traceEvents]
    split
    · cases m.fetch <;> cases m.instruction <;> rfl
    · rfl
  rw [stepEvents, live, if_neg Bool.false_ne_true, List.filter_append, announced]
  obtain ⟨status, m'⟩ := m.step
  cases status <;> exact List.append_nil _

/-! ## Runs -/

/-- The events of a run are collected in front of the earlier ones, the latest first. -/
theorem runEventsOnto_eq (n : Nat) (m : Machine) (earlier : List Event) :
    runEventsOnto n m earlier = (m.runEvents n).reverse ++ earlier := by
  induction n generalizing m earlier with
  | zero => rfl
  | succ n ih =>
    rw [runEvents, List.reverse_reverse, runEventsOnto, runEventsOnto]
    obtain ⟨_ | _ | _, m'⟩ := m.step
    · dsimp only
      rw [ih, ih m' (_ ++ []), List.append_nil, List.append_assoc]
    · rw [List.append_nil]
    · rw [List.append_nil]

/-- A machine that has stopped logs nothing. -/
theorem runEvents_of_terminal (h : m.phase.isTerminal = true) (n : Nat) : m.runEvents n = [] := by
  have none : m.stepEvents = [] := by rw [stepEvents, if_pos h]
  cases n with
  | zero => rfl
  | succ n =>
    rw [runEvents, runEventsOnto, none, step_of_terminal h]
    cases status : m.status with
    | «continue» =>
      rw [← isTerminal_status, status] at h
      cases h
    | halted | fault _ => rfl

/-- The log of a run is the log of its first step and that of the rest. -/
theorem runEvents_succ (n : Nat) (m : Machine) :
    m.runEvents (n + 1) = m.stepEvents ++ m.next.runEvents n := by
  rw [runEvents, runEventsOnto, step_eq]
  cases status : m.next.status with
  | «continue» =>
    dsimp only
    rw [runEventsOnto_eq, List.append_nil, List.reverse_append, List.reverse_reverse,
      List.reverse_reverse]
  | halted | fault _ =>
    -- the run ended with its first step, and the log of the rest is empty
    have stopped : m.next.phase.isTerminal = true := by
      rw [← isTerminal_status, status]
      rfl
    rw [runEvents_of_terminal stopped]
    simp

/-- A machine that has stopped announces nothing. -/
theorem executions_of_terminal (h : m.phase.isTerminal = true) (n : Nat) :
    m.executions n = [] := by
  rw [executions, runEvents_of_terminal h]
  rfl

/-- The executions on the log go step by step. -/
theorem executions_succ (live : m.phase.isTerminal = false) (n : Nat) :
    m.executions (n + 1) = m.traceEvents ++ m.next.executions n := by
  rw [executions, runEvents_succ, List.filter_append, filter_stepEvents live]
  rfl

/-- The switch stays as it is. -/
theorem tracing_next (m : Machine) : m.next.tracing = m.tracing :=
  Call.step.tracing_perform m

/-- Without tracing no execution is on the log. -/
theorem executions_of_not_tracing (off : m.tracing = false) (n : Nat) : m.executions n = [] := by
  induction n generalizing m with
  | zero => rfl
  | succ n ih =>
    cases live : m.phase.isTerminal with
    | true => exact executions_of_terminal live _
    | false =>
      have none : m.traceEvents = [] := by rw [traceEvents, off]; rfl
      rw [executions_succ live, none, ih (m.tracing_next.trans off)]
      rfl

/-- An execution on the log announces the instruction that the machine has decoded after as many
steps as executions stand in front of it. -/
theorem getElem?_executions (on : m.tracing = true) (h : (m.executions n)[k]? = some e) :
    ∃ i, (m.after k).Decodes i ∧ e = (m.after k).execution i := by
  induction n generalizing m k with
  | zero => cases h
  | succ n ih =>
    cases live : m.phase.isTerminal with
    | true =>
      rw [executions_of_terminal live] at h
      cases h
    | false =>
      rw [executions_succ live] at h
      by_cases decoded : ∃ i, m.Decodes i
      · obtain ⟨i, hi⟩ := decoded
        rw [traceEvents_of_decodes on hi] at h
        cases k with
        | zero => exact ⟨i, hi, (Option.some.inj h).symm⟩
        | succ k => exact ih (m := m.next) (m.tracing_next.trans on) h
      · -- nothing is announced, so the step is a fault and nothing follows
        obtain ⟨i, hi⟩ | ⟨f, hf⟩ := m.executes_or_blocked
        · exact absurd ⟨i, hi.decoded live⟩ decoded
        · have stopped : m.next.phase.isTerminal = true := by
            rw [next_of_blocked live hf]
            rfl
          rw [traceEvents_of_not_decodes live decoded, executions_of_terminal stopped] at h
          cases h

/-- **The executions on the log** are as many as the retired instructions, and one more if the run
stops on a wild fault. -/
theorem length_executions (on : m.tracing = true) (live : m.phase.isTerminal = false) (n : Nat) :
    (m.executions n).length =
      m.retirements n + if (m.after n).phase.isWild then 1 else 0 := by
  induction n generalizing m with
  | zero =>
    have tame : m.phase.isWild = false := by
      cases hp : m.phase with
      | ready | running | halted => rfl
      | faulted f => rw [hp] at live; cases live
    simp [executions, runEvents, runEventsOnto, retirements, tame]
  | succ n ih =>
    rw [executions_succ live, List.length_append, retirements, after_succ]
    obtain ⟨i, hi⟩ | ⟨f, hf⟩ := m.executes_or_blocked
    · rw [traceEvents_of_decodes on (hi.decoded live), if_pos (retires_of_executes live hi)]
      cases live' : m.next.phase.isTerminal with
      | false =>
        rw [ih (m.tracing_next.trans on) live', Nat.add_assoc]
        rfl
      | true =>
        -- the instruction was the halt
        have halt : i = .halt := by
          rw [next_eq_retired live hi] at live'
          by_contra other
          rw [if_neg other] at live'
          cases live'
        subst halt
        have phase : (m.next.after n).phase = .halted := by
          rw [after_of_terminal live', next_of_halt live hi]
        rw [executions_of_terminal live', retirements_of_terminal live', phase]
        rfl
    · have phase : m.next.phase = .faulted f := by rw [next_of_blocked live hf]
      have stopped : m.next.phase.isTerminal = true := by rw [phase]; rfl
      rw [executions_of_terminal stopped, retirements_of_terminal stopped,
        after_of_terminal stopped, phase, retires_of_blocked hf]
      have wild := hf.exists_decodes_iff live
      by_cases decoded : ∃ i, m.Decodes i
      · obtain ⟨i, hi⟩ := decoded
        rw [traceEvents_of_decodes on hi]
        simp [Phase.isWild, wild.1 ⟨i, hi⟩]
      · rw [traceEvents_of_not_decodes live decoded]
        simp [Phase.isWild, mt wild.2 decoded]

end Machine
end Accumulator
