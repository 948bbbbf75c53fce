import Accumulator.Address

/-!
# The register file

Besides memory a machine holds three things: the accumulator, the program counter and one flag,
which comparisons write and conditional branches read.
-/

namespace Accumulator

/-- The registers. -/
structure Registers where
  /-- The accumulator: source and destination of every data instruction. -/
  acc : UInt16 := 0
  /-- The address of the next instruction. -/
  pc : Address := ⟨0⟩
  /-- The outcome of the last comparison. -/
  flag : Bool := false
deriving DecidableEq, Repr

namespace Registers

/-- The registers on one line: `ACC=0x0590 PC=$13 Z=1`. -/
def text (r : Registers) : String :=
  "ACC=0x" ++ Hex.lower 4 r.acc.toNat ++ " PC=" ++ r.pc.text ++ " Z=" ++
    (if r.flag then "1" else "0")

end Registers
end Accumulator
