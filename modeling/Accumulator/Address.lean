import Accumulator.Text.Hex

/-!
# Word addresses

Memory is addressed by word: address `n` names the `n`-th cell. An operand byte is always in range,
but a pointer cell holds a whole word and the program counter can run off the end of memory, so an
address need not name a cell. `Address.cell?` is the one place where the range is checked.
-/

namespace Accumulator

/-- The number of words of memory. -/
abbrev memoryWords : Nat := 256

/-- A word address, sixteen bits wide. -/
structure Address where
  value : UInt16
deriving DecidableEq, Repr, Inhabited

namespace Address

/-- The address that an operand byte names. -/
def ofByte (operand : UInt8) : Address :=
  ⟨operand.toUInt16⟩

/-- The cell named by the address, if there is one. -/
def cell? (a : Address) : Option (Fin memoryWords) :=
  if h : a.value.toNat < memoryWords then some ⟨a.value.toNat, h⟩ else none

/-- The address behind this one; behind `$FFFF` comes `$00`. -/
def next (a : Address) : Address :=
  ⟨a.value + 1⟩

/-- A dollar sign and the address in capital hex, at least two digits. -/
def text (a : Address) : String :=
  "$" ++ Hex.upper 2 a.value.toNat

end Address
end Accumulator
