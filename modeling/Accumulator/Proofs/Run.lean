import Mathlib.Logic.Function.Iterate
import Accumulator.Machine.Run
import Accumulator.Proofs.Step

/-!
# A run as the iteration of one step

A machine that has stopped is a fixed point of the step, so a run is the iterated step and the
status it reports is that of the machine it leaves (`run_eq`). `StopsAfter` names the step at which
a machine stops. Up to there a run goes on and retires one instruction a step; behind it a run of
any budget leaves the one machine (`after_eq_of_le`, `StopsAfter.after_eq`), and
`StopsAfter.cases` says which machine that is. `retirements` counts the instructions that a run
retires by looking at its steps, not at its statistics.
-/

namespace Accumulator.Machine

variable {m p : Machine} {k n : Nat} {f : Fault} {i : Instruction}

/-! ## Iterated steps -/

/-- The machine after a number of steps. -/
def after (n : Nat) (m : Machine) : Machine :=
  next^[n] m

@[simp] theorem after_zero (m : Machine) : m.after 0 = m := rfl

theorem after_succ (n : Nat) (m : Machine) : m.after (n + 1) = m.next.after n := rfl

/-- The last step of several, taken apart. -/
theorem after_succ' (n : Nat) (m : Machine) : m.after (n + 1) = (m.after n).next :=
  Function.iterate_succ_apply' next n m

theorem after_add (a b : Nat) (m : Machine) : m.after (a + b) = (m.after a).after b := by
  rw [Nat.add_comm]
  exact Function.iterate_add_apply next b a m

theorem after_of_terminal (h : m.phase.isTerminal = true) (n : Nat) : m.after n = m :=
  Function.iterate_fixed (next_of_terminal h) n

/-- **A run is the iterated step**, and reports the status of the machine it leaves. -/
theorem run_eq (n : Nat) (m : Machine) : m.run n = ((m.after n).status, m.after n) := by
  induction n generalizing m with
  | zero => rfl
  | succ n ih =>
    rw [run, step_eq, after_succ]
    cases hs : m.next.status with
    | «continue» => exact ih m.next
    | halted | fault f =>
      have stopped : m.next.phase.isTerminal = true := by rw [← isTerminal_status, hs]; rfl
      simp only [after_of_terminal stopped, hs]

/-- A machine that has stopped by some step has stopped for good. -/
theorem after_eq_of_le (h : (m.after k).phase.isTerminal = true) (hk : k ≤ n) :
    m.after n = m.after k := by
  obtain ⟨d, rfl⟩ := Nat.exists_eq_add_of_le hk
  rw [after_add, after_of_terminal h]

/-- A machine that has not stopped by some step had not stopped before. -/
theorem live_of_le (h : (m.after n).phase.isTerminal = false) (hk : k ≤ n) :
    (m.after k).phase.isTerminal = false := by
  cases hs : (m.after k).phase.isTerminal with
  | false => rfl
  | true => rw [after_eq_of_le hs hk, hs] at h; cases h

/-! ## Where a machine stops -/

/-- The machine goes on for `k` steps and stops in the next. -/
structure StopsAfter (m : Machine) (k : Nat) : Prop where
  live : (m.after k).phase.isTerminal = false
  stopped : (m.after (k + 1)).phase.isTerminal = true

/-- A run that has stopped did so in one of its steps. -/
theorem exists_stopsAfter (live : m.phase.isTerminal = false)
    (h : (m.after n).phase.isTerminal = true) : ∃ k < n, m.StopsAfter k := by
  induction n with
  | zero => exact absurd h (by simp [live])
  | succ n ih =>
    cases hn : (m.after n).phase.isTerminal with
    | true =>
      obtain ⟨k, hk, hs⟩ := ih hn
      exact ⟨k, Nat.lt_succ_of_lt hk, hs⟩
    | false => exact ⟨n, Nat.lt_succ_self n, hn, h⟩

/-- Behind the step in which it stops a machine does not change any more. -/
theorem StopsAfter.after_eq (h : m.StopsAfter k) (hk : k < n) : m.after n = m.after (k + 1) :=
  after_eq_of_le h.stopped hk

/-- The step in which a machine stops retires a halt or meets a fault. -/
theorem StopsAfter.cases (h : m.StopsAfter k) :
    ((m.after k).Executes .halt ∧ m.after (k + 1) = { m.after k with
      phase := .halted
      statistics := (m.after k).statistics.record .halt false }) ∨
    ∃ f, (m.after k).Blocked f ∧ m.after (k + 1) = { m.after k with phase := .faulted f } := by
  have stopped := h.stopped
  have step := next_cases h.live
  rw [after_succ'] at stopped ⊢
  generalize (m.after k).next = m' at stopped step ⊢
  cases step with
  | next => cases stopped
  | halt hi => exact .inl ⟨hi, rfl⟩
  | fault hf => exact .inr ⟨_, hf, rfl⟩

/-! ## Counting what retires -/

/-- Does the next step retire an instruction? -/
def retires (m : Machine) : Bool :=
  !m.phase.isTerminal && m.advance.isOk

/-- The number of instructions that a run retires. -/
def retirements : Nat → Machine → Nat
  | 0, _ => 0
  | budget + 1, m => (if m.retires then 1 else 0) + retirements budget m.next

/-- A step that executes an instruction retires it. -/
theorem retires_of_executes (live : m.phase.isTerminal = false) (h : m.Executes i) :
    m.retires = true := by
  simp only [retires, live, h.advance]
  rfl

/-- A step that faults retires nothing. -/
theorem retires_of_blocked (h : m.Blocked f) : m.retires = false := by
  simp only [retires, h.advance, Except.isOk, Except.toBool, Bool.and_false]

/-- A machine that has stopped retires nothing. -/
theorem retires_of_terminal (h : m.phase.isTerminal = true) : m.retires = false := by
  simp only [retires, h, Bool.not_true, Bool.false_and]

/-- An instruction retires just in case a machine that has not stopped executes it. -/
theorem retires_iff : m.retires = true ↔ m.phase.isTerminal = false ∧ ∃ i, m.Executes i := by
  refine ⟨fun h => ?_, fun ⟨live, i, hi⟩ => retires_of_executes live hi⟩
  cases live : m.phase.isTerminal with
  | true =>
    rw [retires_of_terminal live] at h
    cases h
  | false =>
    refine ⟨rfl, m.executes_or_blocked.resolve_right fun ⟨f, hf⟩ => ?_⟩
    rw [retires_of_blocked hf] at h
    cases h

theorem retirements_of_terminal (h : m.phase.isTerminal = true) (n : Nat) :
    m.retirements n = 0 := by
  induction n with
  | zero => rfl
  | succ n ih => simp [retirements, retires_of_terminal h, next_of_terminal h, ih]

theorem retirements_add (a b : Nat) (m : Machine) :
    m.retirements (a + b) = m.retirements a + (m.after a).retirements b := by
  induction a generalizing m with
  | zero => simp [retirements]
  | succ a ih =>
    rw [Nat.succ_add, retirements, ih, retirements, after_succ]
    omega

theorem retirements_succ' (n : Nat) (m : Machine) :
    m.retirements (n + 1) = m.retirements n + if (m.after n).retires then 1 else 0 := by
  rw [retirements_add]
  rfl

/-- A run retires no more than one instruction a step. -/
theorem retirements_le (n : Nat) (m : Machine) : m.retirements n ≤ n := by
  induction n with
  | zero => exact Nat.le_refl 0
  | succ n ih =>
    rw [retirements_succ']
    split <;> omega

/-- A step after which a machine goes on retires an instruction. -/
theorem retires_of_live_next (h : m.next.phase.isTerminal = false) : m.retires = true := by
  cases live : m.phase.isTerminal with
  | true => rw [next_of_terminal live, live] at h; cases h
  | false =>
    obtain ⟨i, hi⟩ | ⟨f, hf⟩ := m.executes_or_blocked
    · exact retires_of_executes live hi
    · rw [next_of_blocked live hf] at h; cases h

/-- As long as a machine goes on, every step retires an instruction. -/
theorem retirements_of_live (h : (m.after n).phase.isTerminal = false) :
    m.retirements n = n := by
  induction n with
  | zero => rfl
  | succ n ih =>
    rw [retirements_succ', ih (live_of_le h (Nat.le_succ n)), if_pos]
    exact retires_of_live_next (by rwa [after_succ'] at h)

/-- The instructions that a run retires are those of its first steps. -/
theorem retires_of_lt_retirements (h : k < m.retirements n) : (m.after k).retires = true := by
  induction n generalizing m k with
  | zero => cases h
  | succ n ih =>
    cases retires : m.retires with
    | true =>
      cases k with
      | zero => exact retires
      | succ k =>
        rw [retirements, if_pos retires] at h
        exact ih (m := m.next) (by omega)
    | false =>
      have stopped : m.next.phase.isTerminal = true := by
        by_contra live
        rw [retires_of_live_next (Bool.eq_false_iff.2 live)] at retires
        cases retires
      rw [retirements, retires, retirements_of_terminal stopped] at h
      cases h

/-- Behind the step in which a machine stops nothing retires. -/
theorem StopsAfter.retirements_eq (h : m.StopsAfter k) (hk : k < n) :
    m.retirements n = k + if (m.after k).retires then 1 else 0 := by
  obtain ⟨d, rfl⟩ := Nat.exists_eq_add_of_le hk
  rw [retirements_add, retirements_of_terminal h.stopped, Nat.add_zero, retirements_succ',
    retirements_of_live h.live]

end Accumulator.Machine
