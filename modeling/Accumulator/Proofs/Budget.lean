import Accumulator.Proofs.Counting

/-!
# The exact law of the budget

Where a machine stops decides what a run with a budget answers, whatever the budget. A machine that
halts in its `k`-th step needs a budget of `k`, since the halt retires and is counted; one that
faults in its `k`-th step needs a budget of `k` to show the fault and retires `k - 1` instructions.
Below that the budget is spent to the last step, above it the answer and the machine stay the same.
`runUntilHalt_cases` is that case distinction and `runUntilHalt_law` what it comes to.
-/

namespace Accumulator.Machine

variable {m : Machine} {n b k : Nat} {f : Fault}

/-! ## The answer by the machine that is left -/

/-- The counters of the two machines differ by what the run retired, on 64 bits. -/
theorem runUntilHalt_eq (n : Nat) (m : Machine) :
    m.runUntilHalt n = match (m.after n).status with
      | .halted => (.ok (.ofNat (m.retirements n)), m.after n)
      | .fault f => (.error (.fault f), m.after n)
      | .continue => (.error (.budgetSpent (.ofNat (m.retirements n))), m.after n) := by
  have count : (m.after n).statistics.steps - m.statistics.steps = .ofNat (m.retirements n) := by
    rw [steps_after, UInt64.add_comm, UInt64.add_sub_cancel]
  cases status : (m.after n).status <;> simp only [runUntilHalt, run_eq, count, status]

/-- What a run until the halt leaves is what the plain run leaves; only the answer differs. -/
@[simp] theorem runUntilHalt_snd (n : Nat) (m : Machine) : (m.runUntilHalt n).2 = m.after n := by
  rw [runUntilHalt_eq]
  split <;> rfl

/-- The machine goes on behind the budget. -/
theorem runUntilHalt_of_live (h : (m.after n).phase.isTerminal = false) :
    m.runUntilHalt n = (.error (.budgetSpent (.ofNat n)), m.after n) := by
  rw [runUntilHalt_eq, status_of_live h, retirements_of_live h]

/-- A halt within the budget retires as the last instruction. -/
theorem StopsAfter.retirements_of_halt (h : m.StopsAfter k) (hk : k < n)
    (halt : (m.after k).Executes .halt) : m.retirements n = k + 1 := by
  rw [h.retirements_eq hk, if_pos (retires_of_executes h.live halt)]

/-- A fault within the budget does not retire. -/
theorem StopsAfter.retirements_of_fault (h : m.StopsAfter k) (hk : k < n)
    (fault : (m.after k).Blocked f) : m.retirements n = k := by
  rw [h.retirements_eq hk, retires_of_blocked fault]
  rfl

/-- A budget that reaches the halt is answered with the number of steps up to it. -/
theorem StopsAfter.runUntilHalt_of_halt (h : m.StopsAfter k) (hk : k < n)
    (halt : (m.after k).Executes .halt) :
    m.runUntilHalt n = (.ok (.ofNat (k + 1)), m.after (k + 1)) := by
  have phase : (m.after (k + 1)).status = .halted := by
    rw [after_succ', next_of_halt h.live halt]
    rfl
  rw [runUntilHalt_eq, h.retirements_of_halt hk halt, h.after_eq hk, phase]

/-- A budget that reaches the fault is answered with the fault. -/
theorem StopsAfter.runUntilHalt_of_fault (h : m.StopsAfter k) (hk : k < n)
    (fault : (m.after k).Blocked f) :
    m.runUntilHalt n = (.error (.fault f), m.after (k + 1)) := by
  have phase : (m.after (k + 1)).status = .fault f := by
    rw [after_succ', next_of_blocked h.live fault]
    rfl
  rw [runUntilHalt_eq, h.after_eq hk, phase]

/-- The three answers of a run with a budget, each with the machine it comes with. -/
inductive Answered (m : Machine) (n : Nat) : Except Failure UInt64 × Machine → Prop
  /-- The machine goes on behind the budget. -/
  | spent : (m.after n).phase.isTerminal = false →
      Answered m n (.error (.budgetSpent (.ofNat n)), m.after n)
  /-- It halts within the budget. -/
  | halt {k : Nat} : k < n → m.StopsAfter k → (m.after k).Executes .halt →
      Answered m n (.ok (.ofNat (k + 1)), m.after (k + 1))
  /-- It faults within the budget. -/
  | fault {k : Nat} {f : Fault} : k < n → m.StopsAfter k → (m.after k).Blocked f →
      Answered m n (.error (.fault f), m.after (k + 1))

/-- **Inversion of a run with a budget.** -/
theorem runUntilHalt_cases (live : m.phase.isTerminal = false) (n : Nat) :
    m.Answered n (m.runUntilHalt n) := by
  cases hn : (m.after n).phase.isTerminal with
  | false =>
    rw [runUntilHalt_of_live hn]
    exact .spent hn
  | true =>
    obtain ⟨k, hk, stops⟩ := exists_stopsAfter live hn
    obtain ⟨halt, -⟩ | ⟨f, fault, -⟩ := stops.cases
    · rw [stops.runUntilHalt_of_halt hk halt]
      exact .halt hk stops halt
    · rw [stops.runUntilHalt_of_fault hk fault]
      exact .fault hk stops fault

/-- Up to the step in which it stops a machine spends every budget. -/
theorem StopsAfter.runUntilHalt_of_le (h : m.StopsAfter k) (hb : b ≤ k) :
    m.runUntilHalt b = (.error (.budgetSpent (.ofNat b)), m.after b) :=
  runUntilHalt_of_live (live_of_le h.live hb)

/-! ## The law -/

section
variable (live : m.phase.isTerminal = false)

include live

/-- An answer of `k` is a halt in the `k`-th step. -/
theorem runUntilHalt_ok {w : UInt64} (room : n < 2 ^ 64) (h : (m.runUntilHalt n).1 = .ok w) :
    ∃ k < n, w.toNat = k + 1 ∧ m.StopsAfter k ∧ (m.after k).Executes .halt := by
  have answered := runUntilHalt_cases live n
  generalize m.runUntilHalt n = answer at h answered
  cases answered with
  | spent hn => cases h
  | @halt k hk stops halt =>
    cases h
    have lt : k + 1 < 2 ^ 64 := by omega
    exact ⟨k, hk, UInt64.toNat_ofNat_of_lt' lt, stops, halt⟩
  | fault hk stops fault => cases h

/-- A budget that is spent leaves a machine that goes on. -/
theorem runUntilHalt_budgetSpent {w : UInt64} (room : n < 2 ^ 64)
    (h : (m.runUntilHalt n).1 = .error (.budgetSpent w)) :
    w.toNat = n ∧ (m.after n).phase.isTerminal = false := by
  have answered := runUntilHalt_cases live n
  generalize m.runUntilHalt n = answer at h answered
  cases answered with
  | spent hn =>
    cases h
    exact ⟨UInt64.toNat_ofNat_of_lt' room, hn⟩
  | halt hk stops halt => cases h
  | fault hk stops fault => cases h

/-- A fault is met within the budget. -/
theorem runUntilHalt_fault (h : (m.runUntilHalt n).1 = .error (.fault f)) :
    ∃ k < n, m.StopsAfter k ∧ (m.after k).Blocked f := by
  have answered := runUntilHalt_cases live n
  generalize m.runUntilHalt n = answer at h answered
  cases answered with
  | spent hn => cases h
  | halt hk stops halt => cases h
  | fault hk stops fault =>
    cases h
    exact ⟨_, hk, stops, fault⟩

/-- A failure is a fault just in case it leaves the machine stopped. -/
theorem isFault_eq_isTerminal {e : Failure} (h : (m.runUntilHalt n).1 = .error e) :
    e.isFault = (m.runUntilHalt n).2.phase.isTerminal := by
  have answered := runUntilHalt_cases live n
  generalize m.runUntilHalt n = answer at h answered
  cases answered with
  | spent hn =>
    cases h
    exact hn.symm
  | halt hk stops halt => cases h
  | fault hk stops fault =>
    cases h
    exact stops.stopped.symm

/-- **The budget law.** An answer of `k` comes with a halt as the `k`-th of `k` retired
instructions, from every budget of at least `k`; a spent budget with as many retired instructions
and a machine that goes on; a fault with the number of instructions retired before it, from every
greater budget. A smaller budget than the stop needs is spent. The number of retired instructions
is what the step counter moves by. -/
theorem runUntilHalt_law (room : m.statistics.steps.toNat + n < 2 ^ 64) :
    (∀ k, (m.runUntilHalt n).1 = .ok k →
      1 ≤ k.toNat ∧ k.toNat ≤ n ∧ (m.runUntilHalt n).2.phase = .halted ∧
        m.retirements n = k.toNat ∧
      ∀ b, (k.toNat ≤ b → m.runUntilHalt b = m.runUntilHalt n) ∧
        (b < k.toNat → (m.runUntilHalt b).1 = .error (.budgetSpent (.ofNat b)))) ∧
    (∀ s, (m.runUntilHalt n).1 = .error (.budgetSpent s) →
      s.toNat = n ∧ m.retirements n = n ∧ (m.runUntilHalt n).2.phase.isTerminal = false) ∧
    (∀ f, (m.runUntilHalt n).1 = .error (.fault f) →
      m.retirements n < n ∧ (m.runUntilHalt n).2.phase = .faulted f ∧
      ∀ b, (m.retirements n < b → m.runUntilHalt b = m.runUntilHalt n) ∧
        (b ≤ m.retirements n → (m.runUntilHalt b).1 = .error (.budgetSpent (.ofNat b)))) ∧
    (∀ e, (m.runUntilHalt n).1 = .error e →
      e.isFault = (m.runUntilHalt n).2.phase.isTerminal) ∧
    (m.runUntilHalt n).2.statistics.steps.toNat =
      m.statistics.steps.toNat + m.retirements n := by
  have small : n < 2 ^ 64 := by omega
  refine ⟨fun w h => ?_, fun w h => ?_, fun f h => ?_, fun e => isFault_eq_isTerminal live, ?_⟩
  · obtain ⟨k, hk, hw, stops, halt⟩ := runUntilHalt_ok live small h
    have count := stops.retirements_of_halt hk halt
    refine ⟨by omega, by omega, ?_, by omega, fun b => ⟨fun hb => ?_, fun hb => ?_⟩⟩
    · rw [runUntilHalt_snd, stops.after_eq hk, after_succ', next_of_halt stops.live halt]
    · rw [stops.runUntilHalt_of_halt hk halt, stops.runUntilHalt_of_halt (by omega) halt]
    · rw [stops.runUntilHalt_of_le (by omega)]
  · obtain ⟨hw, hn⟩ := runUntilHalt_budgetSpent live small h
    refine ⟨hw, retirements_of_live hn, ?_⟩
    rwa [runUntilHalt_snd]
  · obtain ⟨k, hk, stops, fault⟩ := runUntilHalt_fault live h
    have count := stops.retirements_of_fault hk fault
    refine ⟨by omega, ?_, fun b => ⟨fun hb => ?_, fun hb => ?_⟩⟩
    · rw [runUntilHalt_snd, stops.after_eq hk, after_succ', next_of_blocked stops.live fault]
    · rw [stops.runUntilHalt_of_fault hk fault, stops.runUntilHalt_of_fault (by omega) fault]
    · rw [stops.runUntilHalt_of_le (by omega)]
  · have le := retirements_le n m
    rw [runUntilHalt_snd, toNat_steps_after (by omega)]

end

/-- A loop that counts the accumulator down from two, with the given word behind it and a pointer to
an address outside memory in the cell behind that. -/
def countdown (last : UInt16) : Machine :=
  let loop : List Instruction :=
    [.load (.immediate 2), .sub (.immediate 1), .cmp (.immediate 0), .brne 1]
  { new with memory := Memory.zeros.overlay (loop.map Instruction.encode ++ [last, 0x1234]) 0 }

/-- The loop in front of a halt, and in front of a store through the pointer: seven instructions
retire, and the eighth step is the halt or the fault. -/
theorem runUntilHalt_law_countdown :
    let halting := countdown (Instruction.encode .halt)
    let wild := countdown (Instruction.encode (.store (.indirect 5)))
    let f : Fault := .outOfBounds ⟨0x1234⟩ .write
    ((halting.runUntilHalt 20).1 = .ok 8 ∧ halting.runUntilHalt 8 = halting.runUntilHalt 20 ∧
      (halting.runUntilHalt 7).1 = .error (.budgetSpent 7)) ∧
    (wild.runUntilHalt 20).1 = .error (.fault f) ∧ wild.runUntilHalt 8 = wild.runUntilHalt 20 ∧
      (wild.runUntilHalt 7).1 = .error (.budgetSpent 7) ∧
      (wild.runUntilHalt 20).2.phase = .faulted f := by
  intro halting wild f
  have retired : halting.retirements 20 = 8 ∧ wild.retirements 20 = 7 := by decide +kernel
  have status : (halting.after 20).status = .halted ∧ (wild.after 20).status = .fault f := by
    decide +kernel
  have halts : (halting.runUntilHalt 20).1 = .ok 8 := by
    rw [runUntilHalt_eq, status.1, retired.1]
    rfl
  have faults : (wild.runUntilHalt 20).1 = .error (.fault f) := by
    rw [runUntilHalt_eq, status.2]
  obtain ⟨ok, -⟩ := runUntilHalt_law (m := halting) (n := 20) rfl (by decide)
  obtain ⟨-, -, fault, -⟩ := runUntilHalt_law (m := wild) (n := 20) rfl (by decide)
  obtain ⟨-, -, -, -, budgets⟩ := ok 8 halts
  obtain ⟨-, phase, budgets'⟩ := fault f faults
  rw [retired.2] at budgets'
  exact ⟨⟨halts, (budgets 8).1 (by decide), (budgets 7).2 (by decide)⟩, faults,
    (budgets' 8).1 (by decide), (budgets' 7).2 (by decide), phase⟩

end Accumulator.Machine
