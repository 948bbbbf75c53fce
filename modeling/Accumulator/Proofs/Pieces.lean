import Mathlib.Data.List.Infix
import Accumulator.Proofs.Run

/-!
# A run cut into pieces

Whoever drives a machine may cut a budget into single steps and runs with budgets of their own. A
run is the iterated step and reports the status of the machine it leaves (`run_eq`), so the cuts do
not show: behind every piece the machine is where one run with the budgets added up so far leaves
it, and the piece reports what that run would have reported (`runPieces_eq`). A piece with no budget
does nothing and reports the status again, on a machine that has stopped as on any other.
-/

namespace Accumulator.Machine

/-! ## Two runs -/

/-- **A run behind a run is one run** with both budgets, in the machine and in the status. -/
theorem run_run (a b : Nat) (m : Machine) : (m.run a).2.run b = m.run (a + b) := by
  rw [run_eq a, run_eq b, run_eq (a + b), after_add]

/-- A step is a run with a budget of one. -/
theorem step_eq_run (m : Machine) : m.step = m.run 1 := by
  rw [step_eq, run_eq]
  rfl

/-! ## Any number of pieces -/

/-- A piece of a run. -/
inductive Piece where
  | step
  | run (budget : Nat)

namespace Piece

/-- How many steps the piece may take. -/
def budget : Piece → Nat
  | .step => 1
  | .run budget => budget

/-- The budgets of pieces, added up. -/
def total : List Piece → Nat
  | [] => 0
  | p :: rest => p.budget + total rest

/-- What a piece reports and leaves. -/
def perform (m : Machine) : Piece → Status × Machine
  | .step => m.step
  | .run budget => m.run budget

/-- Every piece is a run with the budget that it stands for. -/
theorem perform_eq (p : Piece) (m : Machine) : p.perform m = m.run p.budget := by
  cases p with
  | step => exact m.step_eq_run
  | run budget => rfl

end Piece

open Piece (total)

/-- Runs the pieces one after the other: what each of them reports, and the machine behind all. -/
def runPieces : List Piece → Machine → List Status × Machine
  | [], m => ([], m)
  | p :: rest, m =>
    let (status, m') := p.perform m
    let (later, last) := runPieces rest m'
    (status :: later, last)

/-- The first piece is run on its own, and the others on what it leaves. -/
theorem runPieces_cons (p : Piece) (rest : List Piece) (m : Machine) :
    m.runPieces (p :: rest) =
      ((m.run p.budget).1 :: ((m.run p.budget).2.runPieces rest).1,
        ((m.run p.budget).2.runPieces rest).2) := by
  rw [runPieces, p.perform_eq]

/-- **Pieces report and leave what runs with the budgets so far do.** -/
theorem runPieces_eq (pieces : List Piece) (m : Machine) :
    m.runPieces pieces =
      (pieces.inits.tail.map fun done => (m.run (total done)).1, (m.run (total pieces)).2) := by
  induction pieces generalizing m with
  | nil => rfl
  | cons p rest ih =>
    -- behind the first piece the budgets are counted from there
    have behind (done : List Piece) :
        (m.run p.budget).2.run (total done) = m.run (total (p :: done)) := by
      rw [run_run, total]
    rw [runPieces_cons, ih, List.inits_cons, List.tail_cons, List.map_map]
    simp only [behind]
    refine Prod.ext ?_ rfl
    cases rest with
    | nil => simp [Piece.total]
    | cons q rest => simp [Function.comp_def, Piece.total]

/-- The last of the pieces reports what the one run does; with no piece the status is at hand. -/
theorem getLastD_runPieces (pieces : List Piece) (m : Machine) :
    (m.runPieces pieces).1.getLastD m.status = (m.run (total pieces)).1 := by
  induction pieces generalizing m with
  | nil => rfl
  | cons p rest ih =>
    have status : (m.run p.budget).1 = (m.run p.budget).2.status := by rw [run_eq]
    rw [runPieces_cons, List.getLastD_cons, status, ih, run_run, total]

/-- **Cutting a budget makes no difference.** On a machine in any state, a run behind a run leaves
and reports what one run with both budgets does. Every step and every run, whatever its budget,
reports the status of the machine that it leaves. Steps and runs one after the other leave the
machine that one run with their budgets added up leaves, and the last of them reports its status;
so does each of them for the budgets up to its own. -/
theorem run_cut (m : Machine) :
    (∀ a b, (m.run a).2.run b = m.run (a + b)) ∧
    (∀ p : Piece, (p.perform m).1 = (p.perform m).2.status) ∧
    ∀ pieces : List Piece,
      (m.runPieces pieces).2 = (m.run (total pieces)).2 ∧
      (m.runPieces pieces).1.getLastD m.status = (m.run (total pieces)).1 ∧
      (m.runPieces pieces).1 = pieces.inits.tail.map fun done => (m.run (total done)).1 := by
  refine ⟨fun a b => run_run a b m, fun p => ?_, fun pieces => ?_⟩
  · rw [p.perform_eq, run_eq]
  · have pair := runPieces_eq pieces m
    exact ⟨congrArg Prod.snd pair, getLastD_runPieces pieces m, congrArg Prod.fst pair⟩

end Accumulator.Machine
