import Mathlib.Tactic.IntervalCases
import Mathlib.Tactic.FinCases
import Accumulator.Instruction.Encoding

/-!
# Decoding by the high byte

The decoder takes a word apart into two nibbles and a byte. `opcode_of_decode` reads its answer
back as division by 256: the quotient is the opcode byte of the instruction and the remainder its
operand. `div_not_mem_of_decode` is the other side: a word that does not decode has none of the
opcode bytes in use.
-/

namespace Accumulator

variable {w : UInt16} {i : Instruction}

/-! ## Fields by division -/

/-- The family is the first digit of a word. -/
theorem Fields.family_ofWord (w : UInt16) : (Fields.ofWord w).family = w.toNat / 256 / 16 := by
  have lt := w.toNat_lt
  simp only [ofWord, familyShift, nibbleMask, UInt16.toNat_and, UInt16.toNat_shiftRight,
    UInt16.reduceToNat, Nat.reduceMod, Nat.shiftRight_eq_div_pow]
  rw [show (15 : Nat) = 2 ^ 4 - 1 from rfl, Nat.and_two_pow_sub_one_eq_mod]
  omega

theorem Fields.mode_ofWord (w : UInt16) : (Fields.ofWord w).mode = w.toNat / 256 % 16 := by
  simp only [ofWord, modeShift, nibbleMask, UInt16.toNat_and, UInt16.toNat_shiftRight,
    UInt16.reduceToNat, Nat.reduceMod, Nat.shiftRight_eq_div_pow]
  rw [show (15 : Nat) = 2 ^ 4 - 1 from rfl, Nat.and_two_pow_sub_one_eq_mod]

theorem Fields.operand_ofWord (w : UInt16) : (Fields.ofWord w).operand.toNat = w.toNat % 256 := by
  simp only [ofWord, operandMask, UInt16.toNat_toUInt8, UInt16.toNat_and, UInt16.reduceToNat]
  rw [show (255 : Nat) = 2 ^ 8 - 1 from rfl, Nat.and_two_pow_sub_one_eq_mod]
  omega

/-! ## Instructions by opcode byte -/

/-- Family and mode of an instruction's fields make up its opcode byte. -/
theorem opcode_of_ofFields {f : Fields} (h : Instruction.ofFields? f = some i) (hm : f.mode < 16) :
    f.family * 16 + f.mode = i.opcode.toNat ∧ (i = .halt ∨ f.operand = i.operand) := by
  obtain ⟨family, mode, b⟩ := f
  unfold Instruction.ofFields? at h
  split at h
  case h_1 hf hm' =>
    cases hf; cases hm'; cases h
    exact ⟨rfl, .inl rfl⟩
  case h_16 hf =>
    cases hf
    dsimp only at h hm ⊢
    interval_cases mode <;> cases h <;> exact ⟨rfl, .inr rfl⟩
  case h_17 hf =>
    cases hf
    dsimp only at h hm ⊢
    rw [Option.ite_none_right_eq_some] at h
    obtain ⟨hm', h⟩ := h
    interval_cases mode <;> cases h <;> exact ⟨rfl, .inr rfl⟩
  case h_19 => cases h
  all_goals
    next hf hm' =>
    cases hf; cases hm'; cases h
    exact ⟨rfl, .inr rfl⟩

/-- Every opcode byte in use decodes, whatever the operand. -/
theorem isSome_ofFields_of_mem {o : UInt8} (h : o ∈ Instruction.opcodes) (b : UInt8) :
    (Instruction.ofFields? ⟨o.toNat / 16, o.toNat % 16, b⟩).isSome := by
  simp only [Instruction.opcodes] at h
  fin_cases h <;> rfl

/-- **A decoded word by division**: the quotient by 256 is the opcode byte of the instruction and,
but for a halt, the remainder is its operand. -/
theorem opcode_of_decode (h : Instruction.decode? w = some i) :
    w.toNat / 256 = i.opcode.toNat ∧ (i = .halt ∨ w.toNat % 256 = i.operand.toNat) := by
  have hm : (Fields.ofWord w).mode < 16 := by
    rw [Fields.mode_ofWord]
    exact Nat.mod_lt _ (by decide)
  obtain ⟨ho, hb⟩ := opcode_of_ofFields h hm
  rw [Fields.family_ofWord, Fields.mode_ofWord, Nat.mul_comm, Nat.div_add_mod] at ho
  refine ⟨ho, hb.imp_right fun hb => ?_⟩
  rw [← hb, Fields.operand_ofWord]

/-- A word that does not decode has none of the opcode bytes in use. -/
theorem div_not_mem_of_decode (h : Instruction.decode? w = none) :
    w.toNat / 256 ∉ Instruction.opcodes.map UInt8.toNat := by
  intro hmem
  obtain ⟨o, ho, hw⟩ := List.mem_map.1 hmem
  have some := isSome_ofFields_of_mem ho (Fields.ofWord w).operand
  rw [hw, ← Fields.family_ofWord, ← Fields.mode_ofWord] at some
  change (Instruction.decode? w).isSome at some
  rw [h] at some
  cases some

end Accumulator
