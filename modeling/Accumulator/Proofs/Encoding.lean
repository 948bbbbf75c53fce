import Accumulator.Proofs.Decode

/-!
# Encoded instructions decode

The encoder puts an opcode byte above an operand byte, the decoder takes two nibbles and a byte
apart. As numbers they do the same (`toNat_encode`), so the fields of an encoded word are the
nibbles of the opcode and the operand, and every instruction comes back (`decode_encode`).
-/

namespace Accumulator

/-- The fields of an instruction by its opcode byte give the instruction back. -/
theorem Instruction.ofFields_opcode (i : Instruction) :
    ofFields? ⟨i.opcode.toNat / 16, i.opcode.toNat % 16, i.operand⟩ = some i := by
  cases i with
  | halt => rfl
  | breq _ | brne _ | jump _ | noop _ => simp [opcode, operand, ofFields?]
  | load s => cases s <;> simp [opcode, operand, ofFields?, LoadOperand.byte]
  | store t =>
    cases t <;> simp [opcode, operand, ofFields?, Target.opcode, Target.byte]
  | add o | sub o | cmp o =>
    cases o <;> simp [opcode, operand, ofFields?, Operand.opcode, Operand.byte]
  | zero t | inc t | dec t =>
    cases t <;>
      simp [opcode, operand, ofFields?, ofUpdateMode, Target.opcode, Target.byte, Target.ofMode]
  | bit o =>
    cases o <;>
      simp [opcode, operand, ofFields?, ofBitwiseMode, Operand.opcode, Operand.byte, Operand.ofMode]
  | bitwise op o =>
    cases op <;> cases o <;>
      simp [opcode, operand, ofFields?, ofBitwiseMode, Operand.opcode, Operand.byte, Operand.ofMode]

/-- The encoding as a number: the opcode byte times 256, and the operand. -/
theorem Instruction.toNat_encode (i : Instruction) :
    i.encode.toNat = i.opcode.toNat * 256 + i.operand.toNat := by
  have high := i.opcode.toNat_lt
  have low : i.operand.toNat < 2 ^ 8 := i.operand.toNat_lt
  have shifted : (i.opcode.toUInt16 <<< 8).toNat = 2 ^ 8 * i.opcode.toNat := by
    rw [UInt16.toNat_shiftLeft, UInt8.toNat_toUInt16, Nat.shiftLeft_eq]
    simp only [UInt16.reduceToNat, Nat.reduceMod]
    omega
  rw [encode, UInt16.toNat_or, shifted, UInt8.toNat_toUInt16,
    ← Nat.two_pow_add_eq_or_of_lt low, Nat.mul_comm]

/-- **Every instruction is decoded from its encoding.** -/
theorem Instruction.decode_encode (i : Instruction) : decode? i.encode = some i := by
  have low := i.operand.toNat_lt
  have number := i.toNat_encode
  have fields : Fields.ofWord i.encode =
      ⟨i.opcode.toNat / 16, i.opcode.toNat % 16, i.operand⟩ := by
    have family := Fields.family_ofWord i.encode
    have mode := Fields.mode_ofWord i.encode
    have operand : (Fields.ofWord i.encode).operand = i.operand := by
      rw [← UInt8.toNat_inj, Fields.operand_ofWord]
      omega
    rw [show i.encode.toNat / 256 = i.opcode.toNat by omega] at family mode
    exact congr (congr (congrArg Fields.mk family) mode) operand
  rw [decode?, fields, ofFields_opcode]

end Accumulator
