import Accumulator.Proofs.Dump
import Accumulator.Proofs.Hundredths
import Accumulator.Proofs.Report
import Accumulator.Proofs.Session

/-!
# What a run shows

The output of a run is told without the functions that print it. Each part has its fixed words
letter by letter; addresses and the accumulator are told by the digits that they are written in
(`Hex.Writes`), counts are in decimal, a share is the nearest hundredth of a percentage
(`Fixed.Shows`), and the words of a dump stand in rows (`IsRow`). What the program prints is of this
form (`isImageLine_imageLine` and the lemmas behind it), and `run_law` says which parts a run shows
and when.
-/

namespace Accumulator

namespace Statistics

/-! ## The report -/

/-- The line names a value: the name, filled up with blanks to 24 columns, a blank and the value. -/
def Names (name value line : String) : Prop :=
  ∃ blanks : List Char, (∀ c ∈ blanks, c = ' ') ∧ name.length + blanks.length = 24 ∧
    line = name ++ String.ofList blanks ++ " " ++ value

/-- The line names a count and in brackets its percentage of the steps, of which there is one at
least. -/
def NamesShare (steps : UInt64) (name : String) (count : UInt64) (line : String) : Prop :=
  ∃ percentage, Fixed.Shows (count.toFloat / (max steps 1).toFloat * 100) percentage ∧
    Names name (toString count.toNat ++ " (" ++ percentage ++ "%)") line

/-- What the lines of a report say, from the first to the last. -/
def contents (s : Statistics) : List (String → Prop) :=
  [ (· = "=========================================="),
    (· = "EXECUTION STATISTICS"),
    (· = "=========================================="),
    Names "steps" (toString s.steps.toNat),
    (· = "------------------------------------------"),
    (· = "INSTRUCTION MIX"),
    NamesShare s.steps "  op.load" s.loads,
    NamesShare s.steps "  op.store" s.stores,
    NamesShare s.steps "  op.alu" s.arithmetic,
    NamesShare s.steps "  op.compare" s.comparisons,
    NamesShare s.steps "  op.logic" s.bitwise,
    NamesShare s.steps "  op.rmw" s.updates,
    NamesShare s.steps "  op.branch" (s.branchesTaken + s.branchesNotTaken),
    NamesShare s.steps "  op.jump" s.jumps,
    NamesShare s.steps "  op.halt" s.halts,
    NamesShare s.steps "  op.noop" s.noops,
    (· = "------------------------------------------"),
    (· = "BRANCHES"),
    Names "  branch.taken" (toString s.branchesTaken.toNat),
    Names "  branch.not_taken" (toString s.branchesNotTaken.toNat) ]

end Statistics

namespace Command

variable {env : Environment} {o : RunOptions} {c : Config} {name : String} {words : List UInt16}
  {r : WordRange}

/-! ## Single lines -/

/-- The range whose words a run shows: the one asked for, or else the sixteen words from `$80`
on. -/
def RunOptions.range (o : RunOptions) : WordRange :=
  o.dump.getD ⟨0x80, 0x90⟩

end Command
end Accumulator
