import Accumulator.Proofs.Requests

/-!
# A machine that has stopped

A halt or a fault stops a machine for good. A call drives the machine if it is a step or a run, of
whatever budget; on a machine that has stopped such a call answers with how it stopped and changes
nothing (`Call.answer_of_drives`, `Call.perform_of_drives`). The other calls but a reset still do
their work and leave the phase (`Call.perform_keeps`). So the driving calls can be struck out of any
sequence without a reset: neither the machine behind it nor the other answers show that they were
there (`filter_drives`). In particular no load, write or setter revives the machine, whatever it
repairs (`terminal_absorbs`).
-/

namespace Accumulator.Machine

variable {m : Machine} {c : Call} {calls : List Call} {f : Fault}

/-! ## Runs up to the halt -/

/-- A machine that halted has nothing left to do. -/
theorem runUntilHalt_of_halted (h : m.phase = .halted) (n : Nat) :
    m.runUntilHalt n = (.ok 0, m) := by
  have stopped : m.phase.isTerminal = true := by rw [h]; rfl
  have status : m.status = .halted := by rw [Machine.status, h]
  rw [runUntilHalt_eq, after_of_terminal stopped, retirements_of_terminal stopped, status]
  rfl

/-- A machine that faulted reports the fault again. -/
theorem runUntilHalt_of_faulted (h : m.phase = .faulted f) (n : Nat) :
    m.runUntilHalt n = (.error (.fault f), m) := by
  have stopped : m.phase.isTerminal = true := by rw [h]; rfl
  have status : m.status = .fault f := by rw [Machine.status, h]
  rw [runUntilHalt_eq, after_of_terminal stopped, status]

/-! ## Single calls -/

/-- Does the call drive the machine, by a step or by a run? -/
def Call.drives : Call → Bool
  | .step | .run _ | .runUntilHalt _ => true
  | .load _ _ | .write _ _ | .setAccumulator _ | .setPc _ | .setTracing _ | .reset => false

/-- What a driving call is answered with when the machine has stopped with this status: the status,
or of a run up to the halt that no instruction was executed or that there was a fault. -/
def Call.repeated (status : Status) : Call → Answer
  | .runUntilHalt _ =>
    match status with
    | .fault f => .halted (.error (.fault f))
    | .halted | .continue => .halted (.ok 0)
  | _ => .status status

/-- A driving call leaves a machine that has stopped as it is. -/
theorem Call.perform_of_drives (stopped : m.phase.isTerminal = true) (h : c.drives = true) :
    c.perform m = m := by
  cases c with
  | step => exact next_of_terminal stopped
  | run n => rw [perform, run_eq, after_of_terminal stopped]
  | runUntilHalt n => rw [perform, runUntilHalt_snd, after_of_terminal stopped]
  | load _ _ | write _ _ | setAccumulator _ | setPc _ | setTracing _ | reset => cases h

/-- A driving call tells how the machine stopped. -/
theorem Call.answer_of_drives (stopped : m.phase.isTerminal = true) (h : c.drives = true) :
    c.answer m = c.repeated m.status := by
  cases c with
  | step =>
    rw [answer, step_of_terminal stopped]
    rfl
  | run n =>
    rw [answer, run_eq, after_of_terminal stopped]
    rfl
  | runUntilHalt n =>
    cases hp : m.phase with
    | ready | running => rw [hp] at stopped; cases stopped
    | halted =>
      have status : m.status = .halted := by rw [Machine.status, hp]
      rw [answer, runUntilHalt_of_halted hp, status]
      rfl
    | faulted f =>
      have status : m.status = .fault f := by rw [Machine.status, hp]
      rw [answer, runUntilHalt_of_faulted hp, status]
      rfl
  | load _ _ | write _ _ | setAccumulator _ | setPc _ | setTracing _ | reset => cases h

/-- No call but a reset takes a machine that has stopped out of its phase, and none counts. -/
theorem Call.perform_keeps (stopped : m.phase.isTerminal = true) (h : c ≠ .reset) :
    (c.perform m).phase = m.phase ∧ (c.perform m).statistics = m.statistics := by
  rcases c.cases m with rfl | ⟨n, runs⟩ | keeps
  · exact absurd rfl h
  · rw [runs.perform, after_of_terminal stopped]
    exact ⟨rfl, rfl⟩
  · exact ⟨keeps.phase, keeps.statistics⟩

/-! ## Sequences of calls -/

/-- The machine behind a sequence of calls. -/
def behind (calls : List Call) (m : Machine) : Machine :=
  calls.foldl Call.perform m

/-- The calls of a sequence, each with what it is answered with. -/
def transcript : List Call → Machine → List (Call × Answer)
  | [], _ => []
  | c :: rest, m => (c, c.answer m) :: transcript rest (c.perform m)

theorem behind_cons (c : Call) (calls : List Call) (m : Machine) :
    m.behind (c :: calls) = (c.perform m).behind calls := rfl

/-- Behind any calls but resets a machine that has stopped is in the same phase with the same
counters. -/
theorem behind_keeps (stopped : m.phase.isTerminal = true) (h : .reset ∉ calls) :
    (m.behind calls).phase = m.phase ∧ (m.behind calls).statistics = m.statistics := by
  induction calls generalizing m with
  | nil => exact ⟨rfl, rfl⟩
  | cons c rest ih =>
    obtain ⟨hc, hrest⟩ := List.ne_and_not_mem_of_not_mem_cons h
    obtain ⟨phase, statistics⟩ := Call.perform_keeps stopped (Ne.symm hc)
    rw [behind_cons, ← phase, ← statistics]
    exact ih (phase ▸ stopped) hrest

/-- **Driving calls leave no trace**, neither in the machine nor in the answers to the others. -/
theorem filter_drives (stopped : m.phase.isTerminal = true) (h : .reset ∉ calls) :
    m.behind calls = m.behind (calls.filter (!·.drives)) ∧
    (m.transcript calls).filter (!·.1.drives) = m.transcript (calls.filter (!·.drives)) := by
  induction calls generalizing m with
  | nil => exact ⟨rfl, rfl⟩
  | cons c rest ih =>
    obtain ⟨hc, hrest⟩ := List.ne_and_not_mem_of_not_mem_cons h
    rw [transcript, behind_cons]
    cases drives : c.drives with
    | true =>
      rw [List.filter_cons_of_neg (by simp [drives]), List.filter_cons_of_neg (by simp [drives]),
        Call.perform_of_drives stopped drives]
      exact ih stopped hrest
    | false =>
      obtain ⟨phase, -⟩ := Call.perform_keeps stopped (Ne.symm hc)
      obtain ⟨machine, answers⟩ := ih (phase ▸ stopped) hrest
      rw [List.filter_cons_of_pos (by simp [drives]), List.filter_cons_of_pos (by simp [drives]),
        transcript, behind_cons, machine, answers]
      exact ⟨rfl, rfl⟩

/-- Every driving call of a sequence tells how the machine had stopped in front of it. -/
theorem transcript_drives (stopped : m.phase.isTerminal = true) (h : .reset ∉ calls)
    {entry : Call × Answer} (hmem : entry ∈ m.transcript calls) (drives : entry.1.drives = true) :
    entry.2 = entry.1.repeated m.status := by
  induction calls generalizing m with
  | nil => cases hmem
  | cons c rest ih =>
    obtain ⟨hc, hrest⟩ := List.ne_and_not_mem_of_not_mem_cons h
    obtain ⟨phase, -⟩ := Call.perform_keeps stopped (Ne.symm hc)
    have status : (c.perform m).status = m.status := by rw [Machine.status, phase]; rfl
    rcases List.mem_cons.1 hmem with rfl | later
    · exact Call.answer_of_drives stopped drives
    · rw [← status]
      exact ih (phase ▸ stopped) hrest later

/-- **A machine that has stopped is done for all calls but a reset.** In a sequence of calls without
a reset every step and every run is answered with the status in which the machine had stopped, and
every run up to the halt that no instruction was executed, or with the fault. The machine behind
the sequence, and what the loads, writes and setters in it are answered with, are those of the
sequence without the steps and runs; the phase and the counters are as they were. -/
theorem terminal_absorbs (stopped : m.phase.isTerminal = true) (h : .reset ∉ calls) :
    (∀ entry ∈ m.transcript calls, entry.1.drives = true →
      entry.2 = entry.1.repeated m.status) ∧
    m.behind calls = m.behind (calls.filter (!·.drives)) ∧
    (m.transcript calls).filter (!·.1.drives) = m.transcript (calls.filter (!·.drives)) ∧
    (m.behind calls).phase = m.phase ∧ (m.behind calls).statistics = m.statistics := by
  obtain ⟨machine, answers⟩ := filter_drives stopped h
  refine ⟨fun entry hmem drives => ?_, machine, answers, behind_keeps stopped h⟩
  exact transcript_drives stopped h hmem drives

/-- A machine that met a word that is no instruction. -/
def misled : Machine :=
  { new with memory := Memory.zeros.put 0 0xFFFF, phase := .faulted (.invalidOpcode ⟨0⟩ 0xFFFF) }

/-- The word is repaired and the program counter moved, and the fault stands. -/
theorem terminal_absorbs_misled :
    misled.phase.isTerminal = true ∧
    Call.reset ∉ [.write ⟨0⟩ 0, .runUntilHalt 9, .setPc ⟨3⟩, .run 0] ∧
    misled.behind [.write ⟨0⟩ 0, .runUntilHalt 9, .setPc ⟨3⟩, .run 0] =
      misled.behind [.write ⟨0⟩ 0, .setPc ⟨3⟩] ∧
    (misled.behind [.write ⟨0⟩ 0, .runUntilHalt 9, .setPc ⟨3⟩, .run 0]).phase =
      .faulted (.invalidOpcode ⟨0⟩ 0xFFFF) := by
  have kept : Call.reset ∉ [.write ⟨0⟩ 0, .runUntilHalt 9, .setPc ⟨3⟩, .run 0] := by simp
  obtain ⟨-, erased, -, phase, -⟩ := terminal_absorbs (m := misled) rfl kept
  exact ⟨rfl, kept, erased, phase⟩

end Accumulator.Machine
