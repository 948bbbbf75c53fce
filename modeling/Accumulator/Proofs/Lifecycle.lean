import Mathlib.Data.List.Induction
import Mathlib.Logic.Relation
import Accumulator.Proofs.Calls

/-!
# The life of a machine

The phase of a machine, its counters and the status that it reports are kept in three places and
written by different calls. `Lawful` says what the phase has to do with the counters. A step keeps
it as long as the counters have room, a load or a setter does not touch what it speaks of, and a
reset starts over; so it holds behind any calls on a new machine (`history_lawful`). The phase
moves along `Phase.Next` and comes back to ready by a reset only.
-/

namespace Accumulator

/-! ## Phases and the faults in them -/

/-- The moves of a phase in one step: off with the first instruction, on, and to a stop. -/
inductive Phase.Next : Phase → Phase → Prop
  | first : Next .ready .running
  | go : Next .running .running
  | stop {p p' : Phase} : p.isTerminal = false → p'.isTerminal = true → Next p p'

/-- No move leads back to ready. -/
theorem Phase.Next.ne_ready {p p' : Phase} (h : Next p p') : p' ≠ .ready := by
  rintro rfl
  cases h with
  | stop _ h => cases h

/-- No moves lead back to ready. -/
theorem Phase.eq_ready_of_moves {p : Phase} (h : Relation.ReflTransGen Next p .ready) :
    p = .ready := by
  rcases h.cases_tail with rfl | ⟨q, -, hq⟩
  · rfl
  · exact absurd rfl hq.ne_ready

/-- What a fault says is the case: its address is outside memory, or its program counter inside
and its word no instruction. -/
def Fault.Sound : Fault → Prop
  | .outOfBounds a _ => memoryWords ≤ a.value.toNat
  | .invalidOpcode pc word => pc.value.toNat < memoryWords ∧ Instruction.decode? word = none

namespace Machine

variable {m m' : Machine} {n : Nat} {f : Fault}

/-- A fault that a machine is about to meet is sound. -/
theorem Blocked.sound (h : m.Blocked f) : f.Sound := by
  cases h with
  | fetch outside => exact outside
  | opcode inside decodes => exact ⟨inside, decodes⟩
  | pointer _ _ _ wild => exact wild

/-! ## Phase and counters -/

/-- What the phase of a machine has to do with its counters and with the fault in it. -/
structure Lawful (m : Machine) : Prop where
  /-- Every step is in one class. -/
  balanced : m.statistics.Balanced
  ready : m.phase = .ready → m.statistics = {}
  running : m.phase = .running → 1 ≤ m.statistics.steps.toNat
  /-- One halt was counted, if the machine halted. -/
  halts : m.statistics.halts = if m.phase = .halted then 1 else 0
  faulted : ∀ f, m.phase = .faulted f → f.Sound

/-- A reset machine is lawful, whatever it was before. -/
theorem lawful_reset (m : Machine) : m.reset.Lawful where
  balanced := rfl
  ready _ := rfl
  running h := by cases h
  halts := rfl
  faulted f h := by cases h

/-- The law speaks of phase and statistics only. -/
theorem Lawful.congr (h : m.Lawful) (hp : m'.phase = m.phase)
    (hs : m'.statistics = m.statistics) : m'.Lawful where
  balanced := by rw [hs]; exact h.balanced
  ready := by rw [hs, hp]; exact h.ready
  running := by rw [hs, hp]; exact h.running
  halts := by rw [hs, hp]; exact h.halts
  faulted := by rw [hp]; exact h.faulted

/-- No halt was counted on a machine that has not stopped. -/
theorem Lawful.halts_of_live (h : m.Lawful) (live : m.phase.isTerminal = false) :
    m.statistics.halts = 0 := by
  rw [h.halts, if_neg]
  intro halted
  rw [halted] at live
  cases live

/-- **A step keeps the law**, if the counters have room for what it retires. -/
theorem Lawful.next (h : m.Lawful)
    (room : m.statistics.steps.toNat + (if m.retires then 1 else 0) < 2 ^ 64) :
    m.next.Lawful := by
  cases live : m.phase.isTerminal with
  | true => rwa [next_of_terminal live]
  | false =>
    have halts := h.halts_of_live live
    have step := next_cases live
    generalize m.next = m' at step
    -- each case fixes the phase behind the step, which leaves one clause of the law on phases
    cases step with
    | @next i hi hne =>
      rw [if_pos (retires_of_executes live hi)] at room
      have steps : (m.retired i).statistics.steps.toNat = m.statistics.steps.toNat + 1 := by
        rw [retired, retire, Statistics.steps_record, Statistics.toNat_succ room]
      refine ⟨h.balanced.record room _ _, nofun, fun _ => ?_, ?_, nofun⟩
      · change 1 ≤ (m.retired i).statistics.steps.toNat
        omega
      · exact (Statistics.halts_record hne).trans halts
    | halt hi =>
      rw [if_pos (retires_of_executes live hi)] at room
      refine ⟨h.balanced.record room _ _, nofun, nofun, ?_, nofun⟩
      show m.statistics.halts + 1 = 1
      rw [halts]
      rfl
    | @fault f hf =>
      refine ⟨h.balanced, nofun, nofun, halts, fun g hg => ?_⟩
      cases hg
      exact hf.sound

/-- A run keeps the law, if the counters have room for what it retires. -/
theorem Lawful.after (h : m.Lawful)
    (room : m.statistics.steps.toNat + m.retirements n < 2 ^ 64) : (m.after n).Lawful := by
  induction n with
  | zero => exact h
  | succ n ih =>
    rw [retirements_succ'] at room
    rw [after_succ']
    refine (ih (by omega)).next ?_
    rwa [toNat_steps_after (by omega), Nat.add_assoc]

/-! ## Moves of the phase -/

/-- A step of a machine that has not stopped is one move of its phase. -/
theorem next_phase (live : m.phase.isTerminal = false) : Phase.Next m.phase m.next.phase := by
  have step := next_cases live
  generalize m.next = m' at step
  cases step with
  | next =>
    cases hp : m.phase with
    | ready => exact .first
    | running => exact .go
    | halted | faulted f => rw [hp] at live; cases live
  | halt => exact .stop live rfl
  | fault => exact .stop live rfl

/-- A run is a sequence of moves. -/
theorem after_phase (n : Nat) (m : Machine) :
    Relation.ReflTransGen Phase.Next m.phase (m.after n).phase := by
  induction n with
  | zero => exact .refl
  | succ n ih =>
    rw [after_succ']
    cases live : (m.after n).phase.isTerminal with
    | true => rwa [next_of_terminal live]
    | false => exact ih.tail (next_phase live)

/-- How a call moves the phase of a machine. -/
def Call.Moves (p p' : Phase) : Call → Prop
  | .reset => p' = .ready
  | .step => p.isTerminal = true ∧ p' = p ∨ Phase.Next p p'
  | .run _ | .runUntilHalt _ => Relation.ReflTransGen Phase.Next p p'
  | _ => p' = p

/-- Every call moves the phase as `Call.Moves` says. -/
theorem Call.moves (c : Call) (m : Machine) : c.Moves m.phase (c.perform m).phase := by
  cases c with
  | reset => rfl
  | step =>
    cases live : m.phase.isTerminal with
    | true => exact .inl ⟨live, congrArg Machine.phase (next_of_terminal live)⟩
    | false => exact .inr (next_phase live)
  | run n =>
    rw [Call.perform, run_eq]
    exact after_phase n m
  | runUntilHalt n =>
    rw [Call.perform, runUntilHalt_snd]
    exact after_phase n m
  | load image origin =>
    obtain ⟨memory, h⟩ := Call.perform_load image origin m
    rw [h]
    rfl
  | write a word =>
    obtain ⟨memory, h⟩ := Call.perform_write a word m
    rw [h]
    rfl
  | setAccumulator _ | setPc _ | setTracing _ => rfl

/-- Only a reset makes a machine ready. -/
theorem Call.Moves.eq_reset {c : Call} {p : Phase} (h : c.Moves p .ready) :
    c = .reset ∨ p = .ready := by
  cases c with
  | reset => exact .inl rfl
  | step =>
    rcases h with ⟨-, hp⟩ | hp
    · exact .inr hp.symm
    · exact absurd rfl hp.ne_ready
  | run _ | runUntilHalt _ => exact .inr (Phase.eq_ready_of_moves h)
  | load _ _ | write _ _ | setAccumulator _ | setPc _ | setTracing _ => exact .inr h.symm

/-! ## Histories -/

/-- The state of a history behind any calls. -/
structure History.Lawful (h : History) : Prop where
  machine : h.machine.Lawful
  /-- The step counter never counts more than what was retired since the machine was made. -/
  steps : h.machine.statistics.steps.toNat ≤ h.retired
  /-- The status is the one last reported, if any was since the last reset. -/
  status : h.machine.status = h.latest.getD .continue

/-- **A call keeps the law**, if the counters have room for what it retires. -/
theorem History.Lawful.call {h : History} (hl : h.Lawful) (c : Call)
    (room : (h.call c).retired < 2 ^ 64) : (h.call c).Lawful := by
  obtain ⟨machine, steps, status⟩ := hl
  rcases c.cases h.machine with rfl | ⟨n, runs⟩ | keeps
  · exact ⟨lawful_reset _, Nat.zero_le _, rfl⟩
  · simp only [History.call, runs.perform, runs.latest, runs.retired] at room ⊢
    refine ⟨machine.after (by omega), ?_, rfl⟩
    rw [toNat_steps_after (by omega)]
    exact Nat.add_le_add_right steps _
  · refine ⟨machine.congr keeps.phase keeps.statistics, ?_, ?_⟩
    · simp only [History.call, keeps.statistics, keeps.retired]
      exact steps
    · simp only [History.call, keeps.latest, ← status, Machine.status, keeps.phase]

/-- Calls never take back what was retired. -/
theorem retired_le_call (h : History) (c : Call) : h.retired ≤ (h.call c).retired :=
  Nat.le_add_right _ _

/-- The law holds behind any sequence of calls. -/
theorem lawful_history (calls : List Call) (room : (history calls).retired < 2 ^ 64) :
    (history calls).Lawful := by
  induction calls using List.reverseRecOn with
  | nil => exact ⟨lawful_reset new, Nat.zero_le _, rfl⟩
  | append_singleton calls c ih =>
    rw [history_concat] at room ⊢
    have le := retired_le_call (history calls) c
    exact (ih (by omega)).call c room

/-- **The life of a machine under any calls.** As long as the counters have room, phase, counters
and fault agree, the status is the one last reported since the last reset, or that the machine can
go on, and it is terminal just in case the phase is. One more call moves the phase forward; ready
comes back by a reset only. -/
theorem history_law (calls : List Call) (room : (history calls).retired < 2 ^ 64) :
    (history calls).machine.Lawful ∧
    (history calls).machine.status = (history calls).latest.getD .continue ∧
    (history calls).machine.status.isTerminal = (history calls).machine.phase.isTerminal ∧
    ∀ c : Call,
      c.Moves (history calls).machine.phase (c.perform (history calls).machine).phase ∧
      ((c.perform (history calls).machine).phase = .ready →
        c = .reset ∨ (history calls).machine.phase = .ready) := by
  obtain ⟨machine, -, status⟩ := lawful_history calls room
  refine ⟨machine, status, isTerminal_status _, fun c => ?_⟩
  have moves := c.moves (history calls).machine
  refine ⟨moves, fun ready => ?_⟩
  rw [ready] at moves
  exact moves.eq_reset

/-- A new machine halts in its first step; neither a setter nor a run revives it. -/
theorem history_law_halted :
    (history [.step, .setPc ⟨300⟩, .run 2]).retired < 2 ^ 64 ∧
    (history [.step, .setPc ⟨300⟩, .run 2]).machine.Lawful ∧
    (history [.step, .setPc ⟨300⟩, .run 2]).machine.status = .halted := by
  have room : (history [.step, .setPc ⟨300⟩, .run 2]).retired < 2 ^ 64 := by decide +kernel
  obtain ⟨lawful, status, -⟩ := history_law [.step, .setPc ⟨300⟩, .run 2] room
  exact ⟨room, lawful, status⟩

end Machine
end Accumulator
