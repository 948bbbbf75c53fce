import Accumulator.Statistics
import Accumulator.Text.Fixed

/-!
# The statistics report

Twenty lines of text: a title, the number of steps, one row for each class of instruction with its
count and its share of the steps, and the two outcomes of conditional branches. Names fill 24
columns and a blank follows.
-/

namespace Accumulator.Statistics

/-- `count` as a percentage of `steps`, in binary64 arithmetic; no steps count as one. -/
def percentage (count steps : UInt64) : Float :=
  count.toFloat / (max steps 1).toFloat * 100

/-- A count, with its percentage of all steps in brackets. -/
def share (s : Statistics) (count : UInt64) : String :=
  toString count.toNat ++ " (" ++ Fixed.text (percentage count s.steps) ++ "%)"

/-- A name padded to 24 columns, a blank and a value. -/
def row (name value : String) : String :=
  name ++ String.ofList (List.replicate (24 - name.length) ' ') ++ " " ++ value

/-- The rows of the instruction mix: name and count. -/
def mix (s : Statistics) : List (String × UInt64) :=
  [("  op.load", s.loads), ("  op.store", s.stores), ("  op.alu", s.arithmetic),
    ("  op.compare", s.comparisons), ("  op.logic", s.bitwise), ("  op.rmw", s.updates),
    ("  op.branch", s.branches), ("  op.jump", s.jumps), ("  op.halt", s.halts),
    ("  op.noop", s.noops)]

/-- The lines of the report. -/
def reportLines (s : Statistics) : List String :=
  [ "==========================================",
    "EXECUTION STATISTICS",
    "==========================================",
    row "steps" (toString s.steps.toNat),
    "------------------------------------------",
    "INSTRUCTION MIX" ] ++
  s.mix.map (fun (name, count) => row name (s.share count)) ++
  [ "------------------------------------------",
    "BRANCHES",
    row "  branch.taken" (toString s.branchesTaken.toNat),
    row "  branch.not_taken" (toString s.branchesNotTaken.toNat) ]

/-- The report as text, every line with its line feed. -/
def report (s : Statistics) : String :=
  String.join (s.reportLines.map (· ++ "\n"))

end Accumulator.Statistics
