import Accumulator.Instruction

/-!
# How instructions are spelled

The text of an instruction is its name with its operands in brackets, each operand with its
addressing mode and all numbers in decimal. `Instruction.Spelled` gives it name by name, without
the printer, and the printer spells every instruction so (`Instruction.spelled_text`).
-/

namespace Accumulator

/-- A bitwise operation is spelled as its name. -/
inductive BitwiseOp.Spelled : BitwiseOp → String → Prop
  | and : Spelled .and "And"
  | or : Spelled .or "Or"
  | xor : Spelled .xor "Xor"
  | lsl : Spelled .lsl "Lsl"
  | lsr : Spelled .lsr "Lsr"
  | rol : Spelled .rol "Rol"
  | ror : Spelled .ror "Ror"

/-- The source of a load is spelled as its addressing mode and its byte in decimal. -/
inductive LoadOperand.Spelled : LoadOperand → String → Prop
  | immediate (v : UInt8) : Spelled (.immediate v) ("Immediate(" ++ toString v.toNat ++ ")")
  | direct (c : UInt8) : Spelled (.direct c) ("Direct(" ++ toString c.toNat ++ ")")
  | indirect (p : UInt8) : Spelled (.indirect p) ("Indirect(" ++ toString p.toNat ++ ")")

/-- An operand is spelled as its addressing mode and its byte in decimal. -/
inductive Operand.Spelled : Operand → String → Prop
  | immediate (v : UInt8) : Spelled (.immediate v) ("Immediate(" ++ toString v.toNat ++ ")")
  | direct (c : UInt8) : Spelled (.direct c) ("Direct(" ++ toString c.toNat ++ ")")

/-- The cell that is written is spelled as its addressing mode and its byte in decimal. -/
inductive Target.Spelled : Target → String → Prop
  | direct (c : UInt8) : Spelled (.direct c) ("Direct(" ++ toString c.toNat ++ ")")
  | indirect (p : UInt8) : Spelled (.indirect p) ("Indirect(" ++ toString p.toNat ++ ")")

/-- An instruction is spelled as its name with its operands in brackets; the addresses of jumps and
the wait of a no-op are bare decimal numbers. -/
inductive Instruction.Spelled : Instruction → String → Prop
  | halt : Spelled .halt "Halt"
  | load {source : LoadOperand} {s : String} :
      source.Spelled s → Spelled (.load source) ("Load(" ++ s ++ ")")
  | store {target : Target} {s : String} :
      target.Spelled s → Spelled (.store target) ("Store(" ++ s ++ ")")
  | add {operand : Operand} {s : String} :
      operand.Spelled s → Spelled (.add operand) ("Add(" ++ s ++ ")")
  | sub {operand : Operand} {s : String} :
      operand.Spelled s → Spelled (.sub operand) ("Sub(" ++ s ++ ")")
  | cmp {operand : Operand} {s : String} :
      operand.Spelled s → Spelled (.cmp operand) ("Cmp(" ++ s ++ ")")
  | breq (target : UInt8) : Spelled (.breq target) ("Breq(" ++ toString target.toNat ++ ")")
  | brne (target : UInt8) : Spelled (.brne target) ("Brne(" ++ toString target.toNat ++ ")")
  | jump (target : UInt8) : Spelled (.jump target) ("Jump(" ++ toString target.toNat ++ ")")
  | bitwise {op : BitwiseOp} {name : String} {operand : Operand} {s : String} :
      op.Spelled name → operand.Spelled s →
      Spelled (.bitwise op operand) ("Bitwise(" ++ (name ++ ", " ++ s) ++ ")")
  | bit {operand : Operand} {s : String} :
      operand.Spelled s → Spelled (.bit operand) ("Bit(" ++ s ++ ")")
  | zero {target : Target} {s : String} :
      target.Spelled s → Spelled (.zero target) ("Zero(" ++ s ++ ")")
  | inc {target : Target} {s : String} :
      target.Spelled s → Spelled (.inc target) ("Inc(" ++ s ++ ")")
  | dec {target : Target} {s : String} :
      target.Spelled s → Spelled (.dec target) ("Dec(" ++ s ++ ")")
  | noop (wait : UInt8) : Spelled (.noop wait) ("Noop(" ++ toString wait.toNat ++ ")")

/-- An operation is printed as it is spelled. -/
theorem BitwiseOp.spelled_text (op : BitwiseOp) : op.Spelled op.text := by
  cases op <;> constructor

/-- The source of a load is printed as it is spelled. -/
theorem LoadOperand.spelled_text (source : LoadOperand) : source.Spelled source.text := by
  cases source with
  | immediate v => exact .immediate v
  | direct c => exact .direct c
  | indirect p => exact .indirect p

/-- An operand is printed as it is spelled. -/
theorem Operand.spelled_text (operand : Operand) : operand.Spelled operand.text := by
  cases operand with
  | immediate v => exact .immediate v
  | direct c => exact .direct c

/-- A written cell is printed as it is spelled. -/
theorem Target.spelled_text (target : Target) : target.Spelled target.text := by
  cases target with
  | direct c => exact .direct c
  | indirect p => exact .indirect p

/-- **An instruction is printed as it is spelled.** -/
theorem Instruction.spelled_text (i : Instruction) : i.Spelled i.text := by
  cases i with
  | halt => exact .halt
  | load source => exact .load source.spelled_text
  | store target => exact .store target.spelled_text
  | add operand => exact .add operand.spelled_text
  | sub operand => exact .sub operand.spelled_text
  | cmp operand => exact .cmp operand.spelled_text
  | breq target => exact .breq target
  | brne target => exact .brne target
  | jump target => exact .jump target
  | bitwise op operand => exact .bitwise op.spelled_text operand.spelled_text
  | bit operand => exact .bit operand.spelled_text
  | zero target => exact .zero target.spelled_text
  | inc target => exact .inc target.spelled_text
  | dec target => exact .dec target.spelled_text
  | noop wait => exact .noop wait

end Accumulator
