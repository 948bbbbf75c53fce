import Accumulator.Proofs.Budget
import Accumulator.Proofs.Placement

/-!
# Runs one after the other

The budget of a simulator is that of one run, and a run that spends it leaves a machine that the
next run goes on with. So runs one after the other make up one run of the machine, cut at the
multiples of the budget (`resumed_eq`), and the result of each is read off that one run: its status
at the end of the piece, and how many instructions retired within the piece (`run_resumed`). A halt
is itself retired and belongs to the piece that it ends; a fault is not, so a machine that faults
behind a full piece spends that piece and faults in the next. This is why the number of spent runs
is rounded differently in the two cases (`results_law`).
-/

namespace Accumulator

namespace Machine

variable {m : Machine} {k n t : Nat} {f : Fault}

/-! ## How a run ends -/

/-- The machine reaches a halt as its `t`-th instruction. -/
structure HaltsAt (m : Machine) (t : Nat) : Prop where
  before : ∀ n < t, (m.run n).1 = .continue
  halt : (m.run t).1 = .halted

/-- The machine retires `k` instructions and meets a fault in the step behind them. -/
structure FaultsAfter (m : Machine) (k : Nat) (f : Fault) : Prop where
  before : ∀ n ≤ k, (m.run n).1 = .continue
  fault : (m.run (k + 1)).1 = .fault f

/-- A run reports the status of the machine that it leaves. -/
theorem run_fst (n : Nat) (m : Machine) : (m.run n).1 = (m.after n).status := by
  rw [run_eq]

/-- A run reports that the machine goes on just in case it has not stopped. -/
theorem run_continue_iff : (m.run n).1 = .continue ↔ (m.after n).phase.isTerminal = false := by
  rw [run_fst, ← isTerminal_status]
  cases (m.after n).status <;> simp [Status.isTerminal]

/-- A halt as the `t`-th instruction is the one that the machine stops on. -/
theorem HaltsAt.stopsAfter (h : m.HaltsAt t) (live : m.phase.isTerminal = false) :
    ∃ k, t = k + 1 ∧ m.StopsAfter k ∧ (m.after k).Executes .halt := by
  have halt := h.halt
  rw [run_fst] at halt
  cases t with
  | zero => cases (status_of_live live).symm.trans halt
  | succ k =>
    have stops : m.StopsAfter k := by
      refine ⟨run_continue_iff.1 (h.before k (Nat.lt_succ_self k)), ?_⟩
      rw [← isTerminal_status, halt]
      rfl
    obtain ⟨executes, -⟩ | ⟨f, -, last⟩ := stops.cases
    · exact ⟨k, rfl, stops, executes⟩
    · rw [last] at halt
      cases halt

/-- A fault behind `k` instructions is the one that the machine stops on. -/
theorem FaultsAfter.stopsAfter (h : m.FaultsAfter k f) :
    m.StopsAfter k ∧ (m.after k).Blocked f := by
  have fault := h.fault
  rw [run_fst] at fault
  have stops : m.StopsAfter k := by
    refine ⟨run_continue_iff.1 (h.before k (Nat.le_refl k)), ?_⟩
    rw [← isTerminal_status, fault]
    rfl
  obtain ⟨-, last⟩ | ⟨g, blocked, last⟩ := stops.cases
  · rw [last] at fault
    cases fault
  · rw [last] at fault
    cases fault
    exact ⟨stops, blocked⟩

/-- A machine that has not stopped halts, faults or goes on for ever. -/
theorem halts_or_faults_or_continues (live : m.phase.isTerminal = false) :
    (∃ t, m.HaltsAt t) ∨ (∃ k f, m.FaultsAfter k f) ∨ ∀ n, (m.run n).1 = .continue := by
  by_cases h : ∀ n, (m.run n).1 = .continue
  · exact .inr (.inr h)
  · obtain ⟨n, hn⟩ := not_forall.1 h
    rw [run_continue_iff, Bool.not_eq_false] at hn
    obtain ⟨k, -, stops⟩ := exists_stopsAfter live hn
    have before (n : Nat) (hn : n ≤ k) : (m.run n).1 = .continue :=
      run_continue_iff.2 (live_of_le stops.live hn)
    obtain ⟨-, last⟩ | ⟨f, -, last⟩ := stops.cases
    · refine .inl ⟨k + 1, fun n hn => before n (Nat.le_of_lt_succ hn), ?_⟩
      rw [run_fst, last]
      rfl
    · refine .inr (.inl ⟨k, f, before, ?_⟩)
      rw [run_fst, last]
      rfl

end Machine

namespace Simulator

variable {s : Simulator} {j k n : Nat} {f : Fault}

/-! ## Runs and the machine they leave -/

/-- The simulator behind `n` runs. -/
def resumed (n : Nat) (s : Simulator) : Simulator :=
  (fun s => s.run.2)^[n] s

/-- The results of `n` runs, one after the other. -/
def results : Nat → Simulator → List (Except Failure Completion)
  | 0, _ => []
  | n + 1, s => s.run.1 :: results n s.run.2

theorem resumed_add (a b : Nat) (s : Simulator) : s.resumed (a + b) = (s.resumed a).resumed b := by
  rw [resumed, Nat.add_comm, Function.iterate_add_apply]
  rfl

/-- Their results are those of the first part and then those of the second. -/
theorem results_add (a b : Nat) (s : Simulator) :
    s.results (a + b) = s.results a ++ (s.resumed a).results b := by
  induction a generalizing s with
  | zero => rw [Nat.zero_add]; rfl
  | succ a ih => rw [Nat.succ_add, results, results, ih]; rfl

/-- Runs that all have one result. -/
theorem results_eq_replicate {result : Except Failure Completion}
    (h : ∀ j < n, (s.resumed j).run.1 = result) : s.results n = List.replicate n result := by
  induction n with
  | zero => rfl
  | succ n ih =>
    rw [results_add, ih fun j hj => h j (Nat.lt_succ_of_lt hj), List.replicate_succ',
      ← h n (Nat.lt_succ_self n)]
    rfl

/-- A run of a simulator advances its machine by the budget and leaves the settings. -/
theorem run_snd (s : Simulator) :
    s.run.2 = { s with machine := s.machine.after s.maxSteps.toNat } := by
  rw [← Machine.runUntilHalt_snd]
  rfl

/-- **Runs one after the other are one run**, with their budgets added up. -/
theorem resumed_eq (n : Nat) (s : Simulator) :
    s.resumed n = { s with machine := s.machine.after (n * s.maxSteps.toNat) } := by
  induction n with
  | zero => rw [Nat.zero_mul]; rfl
  | succ n ih =>
    have last : s.resumed (n + 1) = (s.resumed n).run.2 := Function.iterate_succ_apply' ..
    rw [last, ih, run_snd, Nat.succ_mul, Machine.after_add]

/-- The result of a run behind `n` others: the status at its end, with the number of instructions
that retired since the run before. -/
theorem run_resumed (n : Nat) (s : Simulator) : (s.resumed n).run.1 =
    match (s.machine.after ((n + 1) * s.maxSteps.toNat)).status with
    | .halted => .ok {
        steps := .ofNat (s.machine.retirements ((n + 1) * s.maxSteps.toNat) -
          s.machine.retirements (n * s.maxSteps.toNat))
        accumulator := (s.machine.after ((n + 1) * s.maxSteps.toNat)).registers.acc
        pc := (s.machine.after ((n + 1) * s.maxSteps.toNat)).registers.pc }
    | .fault f => .error (.fault f)
    | .continue => .error (.budgetSpent (.ofNat
        (s.machine.retirements ((n + 1) * s.maxSteps.toNat) -
          s.machine.retirements (n * s.maxSteps.toNat)))) := by
  have piece := s.machine.retirements_add (n * s.maxSteps.toNat) s.maxSteps.toNat
  rw [Nat.succ_mul, resumed_eq, run, Machine.runUntilHalt_eq, ← Machine.after_add, piece,
    Nat.add_sub_cancel_left]
  cases (s.machine.after (n * s.maxSteps.toNat + s.maxSteps.toNat)).status <;> rfl

/-- A run at whose end the machine goes on spends its budget. -/
theorem run_resumed_of_live
    (h : (s.machine.after ((n + 1) * s.maxSteps.toNat)).phase.isTerminal = false) :
    (s.resumed n).run.1 = .error (.budgetSpent s.maxSteps) := by
  have earlier := Machine.live_of_le h (Nat.mul_le_mul_right s.maxSteps.toNat (Nat.le_succ n))
  rw [run_resumed, Machine.status_of_live h, Machine.retirements_of_live h,
    Machine.retirements_of_live earlier, Nat.succ_mul, Nat.add_sub_cancel_left,
    UInt64.ofNat_toNat]

/-- A run that gets behind the step in which the machine faults reports the fault. -/
theorem run_resumed_of_fault (stops : s.machine.StopsAfter k)
    (fault : (s.machine.after k).Blocked f) (hk : k < (n + 1) * s.maxSteps.toNat) :
    (s.resumed n).run.1 = .error (.fault f) := by
  have status : (s.machine.after ((n + 1) * s.maxSteps.toNat)).status = .fault f := by
    rw [stops.after_eq hk, Machine.after_succ', Machine.next_of_blocked stops.live fault]
    rfl
  rw [run_resumed, status]

/-- A run that gets behind the step in which the machine halts counts what was still to retire. -/
theorem run_resumed_of_halt (stops : s.machine.StopsAfter k)
    (halt : (s.machine.after k).Executes .halt) (hk : k < (n + 1) * s.maxSteps.toNat) :
    (s.resumed n).run.1 = .ok {
      steps := .ofNat (k + 1 - s.machine.retirements (n * s.maxSteps.toNat))
      accumulator := (s.machine.after (k + 1)).registers.acc
      pc := (s.machine.after (k + 1)).registers.pc } := by
  have status : (s.machine.after (k + 1)).status = .halted := by
    rw [Machine.after_succ', Machine.next_of_halt stops.live halt]
    rfl
  rw [run_resumed, stops.retirements_of_halt hk halt, stops.after_eq hk, status]

/-! ## The sequence of results -/

/-- How many runs with a budget of `b` make up `t` steps: the quotient, rounded up. -/
def runsFor (b t : Nat) : Nat :=
  (t + b - 1) / b

/-- `k + 1` steps take one run more than `k` steps fill. -/
theorem runsFor_succ {b : Nat} (hb : 1 ≤ b) (k : Nat) : runsFor b (k + 1) = k / b + 1 := by
  rw [runsFor, show k + 1 + b - 1 = k + b by omega, Nat.add_div_right k hb]

/-- The runs in front of the one in which the machine stops are spent. -/
theorem results_of_stopsAfter (stops : s.machine.StopsAfter k) :
    s.results (k / s.maxSteps.toNat) =
      List.replicate (k / s.maxSteps.toNat) (.error (.budgetSpent s.maxSteps)) := by
  refine results_eq_replicate fun j hj => run_resumed_of_live ?_
  have whole : (j + 1) * s.maxSteps.toNat ≤ k :=
    Nat.le_trans (Nat.mul_le_mul_right _ hj) (Nat.div_mul_le_self k _)
  exact Machine.live_of_le stops.live whole

/-- The step in which the machine stops lies in the run behind `k / b` full ones. -/
theorem lt_of_div_le (hb : 1 ≤ s.maxSteps.toNat) (hj : k / s.maxSteps.toNat ≤ j) :
    k < (j + 1) * s.maxSteps.toNat :=
  (Nat.div_lt_iff_lt_mul hb).1 (Nat.lt_succ_of_le hj)

/-- The results when the machine halts in the step behind `k` others: the run that gets there counts
the rest of the instructions, and the later ones none. -/
theorem results_of_halt (hb : 1 ≤ s.maxSteps.toNat) (stops : s.machine.StopsAfter k)
    (halt : (s.machine.after k).Executes .halt) (later : Nat) :
    s.results (k / s.maxSteps.toNat + 1 + later) =
      List.replicate (k / s.maxSteps.toNat) (.error (.budgetSpent s.maxSteps)) ++
        .ok ⟨.ofNat (k % s.maxSteps.toNat + 1), (s.machine.after (k + 1)).registers.acc,
          (s.machine.after (k + 1)).registers.pc⟩ ::
        List.replicate later (.ok ⟨0, (s.machine.after (k + 1)).registers.acc,
          (s.machine.after (k + 1)).registers.pc⟩) := by
  have front := Nat.div_add_mod' k s.maxSteps.toNat
  have before : s.machine.retirements (k / s.maxSteps.toNat * s.maxSteps.toNat) =
      k / s.maxSteps.toNat * s.maxSteps.toNat :=
    Machine.retirements_of_live (Machine.live_of_le stops.live (Nat.div_mul_le_self k _))
  have first := run_resumed_of_halt stops halt (lt_of_div_le hb (Nat.le_refl _))
  rw [before, show k + 1 - k / s.maxSteps.toNat * s.maxSteps.toNat = k % s.maxSteps.toNat + 1 by
    omega] at first
  have rest : (s.resumed (k / s.maxSteps.toNat + 1)).results later = List.replicate later
      (.ok ⟨0, (s.machine.after (k + 1)).registers.acc,
        (s.machine.after (k + 1)).registers.pc⟩) := by
    refine results_eq_replicate fun j _ => ?_
    have behind : k < (k / s.maxSteps.toNat + 1 + j) * s.maxSteps.toNat := by
      rw [Nat.add_right_comm]
      exact lt_of_div_le hb (Nat.le_add_right _ j)
    have all : s.machine.retirements ((k / s.maxSteps.toNat + 1 + j) * s.maxSteps.toNat) = k + 1 :=
      stops.retirements_of_halt behind halt
    rw [← resumed_add, run_resumed_of_halt stops halt (lt_of_div_le hb (by omega)), all,
      Nat.sub_self]
    rfl
  rw [results_add, results_add, results_of_stopsAfter stops, rest, results, first,
    List.append_assoc]
  rfl

/-- The results when the machine faults behind `k` retired instructions. -/
theorem results_of_fault (hb : 1 ≤ s.maxSteps.toNat) (stops : s.machine.StopsAfter k)
    (fault : (s.machine.after k).Blocked f) (later : Nat) :
    s.results (k / s.maxSteps.toNat + later) =
      List.replicate (k / s.maxSteps.toNat) (.error (.budgetSpent s.maxSteps)) ++
        List.replicate later (.error (.fault f)) := by
  rw [results_add, results_of_stopsAfter stops]
  congr 1
  refine results_eq_replicate fun j _ => ?_
  rw [← resumed_add]
  exact run_resumed_of_fault stops fault (lt_of_div_le hb (Nat.le_add_right _ j))

/-- The machine behind enough runs to get past its stop is that of one run that gets past it. -/
theorem machine_resumed_of_stopsAfter (hb : 1 ≤ s.maxSteps.toNat) (stops : s.machine.StopsAfter k)
    (hj : k / s.maxSteps.toNat < j) (hn : k < n) :
    (s.resumed j).machine = (s.machine.run n).2 := by
  have behind : k < j * s.maxSteps.toNat := (Nat.div_lt_iff_lt_mul hb).1 hj
  rw [resumed_eq, Machine.run_eq, stops.after_eq hn]
  exact stops.after_eq behind

/-- **The results of running a loaded image again and again.** The machine halts, faults or goes on
for ever. If it halts in its `t`-th instruction and `q` runs make up `t` steps, the first `q - 1`
runs spend their budget, the next one is complete with the instructions that were left, the
accumulator at the halt and its address, and every later one is complete again without an
instruction. If it faults behind `k` retired instructions, as many runs as they fill spend their
budget and every later one reports the fault. Otherwise all runs spend their budget. Runs one after
the other leave the machine, counters included, of one run with all their budgets; behind a stop,
of any run that gets past it. -/
theorem results_law {c : Config} {image : List UInt16} {s : Simulator}
    (budget : 1 ≤ c.maxSteps.toNat) (loads : (new c).load image = (.ok (), s)) :
    ((∃ t, s.machine.HaltsAt t) ∨ (∃ k f, s.machine.FaultsAfter k f) ∨
      ∀ n, (s.machine.run n).1 = .continue) ∧
    (∀ t, s.machine.HaltsAt t → ∃ last : Completion,
      last.steps.toNat = t - (runsFor c.maxSteps.toNat t - 1) * c.maxSteps.toNat ∧
      last.accumulator = (s.machine.run t).2.registers.acc ∧
      last.pc = (s.machine.run t).2.registers.pc ∧
      last.pc.value.toNat < memoryWords ∧
      Instruction.decode? ((s.machine.run t).2.memory.word last.pc.value.toNat) = some .halt ∧
      ∀ later,
        s.results (runsFor c.maxSteps.toNat t + later) =
          List.replicate (runsFor c.maxSteps.toNat t - 1) (.error (.budgetSpent c.maxSteps)) ++
            .ok last :: List.replicate later (.ok { last with steps := 0 }) ∧
        ∀ n, t ≤ n →
          (s.resumed (runsFor c.maxSteps.toNat t + later)).machine = (s.machine.run n).2) ∧
    (∀ k f, s.machine.FaultsAfter k f → ∀ later,
      s.results (k / c.maxSteps.toNat + later) =
        List.replicate (k / c.maxSteps.toNat) (.error (.budgetSpent c.maxSteps)) ++
          List.replicate later (.error (.fault f)) ∧
      ∀ n, k < n →
        (s.resumed (k / c.maxSteps.toNat + 1 + later)).machine = (s.machine.run n).2) ∧
    ((∀ n, (s.machine.run n).1 = .continue) →
      ∀ n, s.results n = List.replicate n (.error (.budgetSpent c.maxSteps))) ∧
    ∀ n, (s.resumed n).machine = (s.machine.run (n * c.maxSteps.toNat)).2 := by
  have fits : Memory.Fits c.origin image.length :=
    (load_eq_ok_iff (s := new c)).1 (congrArg Prod.fst loads)
  rw [load_of_fits (s := new c) fits] at loads
  cases loads
  -- the budget of the loaded simulator is the one in the settings
  generalize hs : ({ new c with machine := loaded image (new c).origin (new c).machine.tracing } :
    Simulator) = s
  have live : s.machine.phase.isTerminal = false := by rw [← hs]; rfl
  have maxSteps : c.maxSteps = s.maxSteps := by rw [← hs]; rfl
  clear hs
  rw [maxSteps] at budget ⊢
  refine ⟨Machine.halts_or_faults_or_continues live, fun t halts => ?_, fun k f faults later => ?_,
    fun goes n => ?_, fun n => ?_⟩
  · obtain ⟨k, rfl, stops, halt⟩ := halts.stopsAfter live
    have last : s.machine.after (k + 1) = { s.machine.after k with
        phase := .halted
        statistics := (s.machine.after k).statistics.record .halt false } := by
      rw [Machine.after_succ', Machine.next_of_halt stops.live halt]
    have front := Nat.div_add_mod' k s.maxSteps.toNat
    have short : k % s.maxSteps.toNat + 1 < 2 ^ 64 := by
      have remainder := Nat.mod_lt k budget
      have word := s.maxSteps.toNat_lt
      omega
    rw [runsFor_succ budget, Machine.run_eq, Nat.add_sub_cancel]
    refine ⟨⟨.ofNat (k % s.maxSteps.toNat + 1), _, _⟩, ?_, rfl, rfl, ?_, ?_, fun later => ⟨?_, ?_⟩⟩
    · rw [UInt64.toNat_ofNat_of_lt' short]
      omega
    · rw [last]
      exact halt.inside
    · rw [last]
      exact halt.decodes
    · exact results_of_halt budget stops halt later
    · intro n hn
      exact machine_resumed_of_stopsAfter budget stops (by omega) hn
  · obtain ⟨stops, fault⟩ := faults.stopsAfter
    refine ⟨results_of_fault budget stops fault later, fun n hn => ?_⟩
    exact machine_resumed_of_stopsAfter budget stops (by omega) hn
  · refine results_eq_replicate fun j _ => run_resumed_of_live ?_
    exact Machine.run_continue_iff.1 (goes _)
  · rw [resumed_eq, Machine.run_eq]

/-- A load, a no-op and a halt, with a budget of two. -/
theorem results_law_threeSteps :
    1 ≤ (2 : UInt64).toNat ∧
    ∃ s, (new { maxSteps := 2 }).load [0x1005, 0xF200, 0] = (.ok (), s) ∧ s.machine.HaltsAt 3 ∧
    ∃ last : Completion, last.steps.toNat = 1 ∧
      s.results 3 = [.error (.budgetSpent 2), .ok last, .ok { last with steps := 0 }] := by
  have loads : (new { maxSteps := 2 }).load [0x1005, 0xF200, 0] =
    (.ok (), ((new { maxSteps := 2 }).load [0x1005, 0xF200, 0]).2) := by rfl
  have halts : ((new { maxSteps := 2 }).load [0x1005, 0xF200, 0]).2.machine.HaltsAt 3 :=
    ⟨by decide +kernel, by decide +kernel⟩
  obtain ⟨-, halted, -⟩ := results_law (c := { maxSteps := 2 }) (by decide) loads
  obtain ⟨last, steps, -, -, -, -, results⟩ := halted 3 halts
  exact ⟨by decide, _, loads, halts, last, steps, (results 1).1⟩

end Simulator
end Accumulator
