import Accumulator.Instruction.Bitwise

/-!
# Instructions

The instruction set of a machine with one accumulator. Every constructor takes only the addressing
modes that have an encoding, so each value of `Instruction` can be encoded. An operand is one byte:
a value, the address of a cell, or the address of a pointer cell that holds the address meant.
-/

namespace Accumulator

/-- Where an instruction that reads takes its value from. -/
inductive LoadOperand where
  /-- The operand byte itself. -/
  | immediate (value : UInt8)
  /-- The contents of a cell. -/
  | direct (cell : UInt8)
  /-- The contents of the cell whose address a pointer cell holds. -/
  | indirect (pointer : UInt8)
deriving DecidableEq, Repr

/-- The second operand of arithmetic, comparison and bitwise instructions. -/
inductive Operand where
  /-- The operand byte itself. -/
  | immediate (value : UInt8)
  /-- The contents of a cell. -/
  | direct (cell : UInt8)
deriving DecidableEq, Repr

/-- The cell that an instruction writes. -/
inductive Target where
  /-- The cell at the operand address. -/
  | direct (cell : UInt8)
  /-- The cell whose address a pointer cell holds. -/
  | indirect (pointer : UInt8)
deriving DecidableEq, Repr

/-- A decoded instruction. -/
inductive Instruction where
  /-- Stop; the program counter stays on the instruction. -/
  | halt
  /-- The accumulator becomes the value. -/
  | load (source : LoadOperand)
  /-- The cell becomes the accumulator. -/
  | store (target : Target)
  /-- Add to the accumulator modulo `2 ^ 16`. -/
  | add (operand : Operand)
  /-- Subtract from the accumulator modulo `2 ^ 16`. -/
  | sub (operand : Operand)
  /-- The flag becomes "the accumulator equals the value". -/
  | cmp (operand : Operand)
  /-- Jump if the flag is set. -/
  | breq (target : UInt8)
  /-- Jump if the flag is clear. -/
  | brne (target : UInt8)
  | jump (target : UInt8)
  | bitwise (op : BitwiseOp) (operand : Operand)
  /-- The flag becomes "the accumulator has no bit in common with the value". -/
  | bit (operand : Operand)
  /-- The cell becomes zero. -/
  | zero (target : Target)
  /-- Add one to the cell modulo `2 ^ 16`. -/
  | inc (target : Target)
  /-- Subtract one from the cell modulo `2 ^ 16`. -/
  | dec (target : Target)
  /-- Do nothing; the wait count has no effect. -/
  | noop (wait : UInt8)
deriving DecidableEq, Repr

/-! ## Text

An instruction is shown as its name with its operands in brackets, numbers in decimal:
`Load(Immediate(128))`, `Bitwise(Lsl, Direct(3))`, `Halt`. -/

/-- A name with one operand in brackets. -/
def bracketed (name operand : String) : String :=
  name ++ "(" ++ operand ++ ")"

/-- The addressing mode and its byte. -/
def LoadOperand.text : LoadOperand → String
  | .immediate v => bracketed "Immediate" (toString v.toNat)
  | .direct c => bracketed "Direct" (toString c.toNat)
  | .indirect p => bracketed "Indirect" (toString p.toNat)

/-- The addressing mode and its byte. -/
def Operand.text : Operand → String
  | .immediate v => bracketed "Immediate" (toString v.toNat)
  | .direct c => bracketed "Direct" (toString c.toNat)

/-- The addressing mode and its byte. -/
def Target.text : Target → String
  | .direct c => bracketed "Direct" (toString c.toNat)
  | .indirect p => bracketed "Indirect" (toString p.toNat)

/-- The name of the instruction and its operands. -/
def Instruction.text : Instruction → String
  | .halt => "Halt"
  | .load s => bracketed "Load" s.text
  | .store t => bracketed "Store" t.text
  | .add o => bracketed "Add" o.text
  | .sub o => bracketed "Sub" o.text
  | .cmp o => bracketed "Cmp" o.text
  | .breq t => bracketed "Breq" (toString t.toNat)
  | .brne t => bracketed "Brne" (toString t.toNat)
  | .jump t => bracketed "Jump" (toString t.toNat)
  | .bitwise op o => bracketed "Bitwise" (op.text ++ ", " ++ o.text)
  | .bit o => bracketed "Bit" o.text
  | .zero t => bracketed "Zero" t.text
  | .inc t => bracketed "Inc" t.text
  | .dec t => bracketed "Dec" t.text
  | .noop w => bracketed "Noop" (toString w.toNat)

end Accumulator
