import Mathlib.Data.Bool.AllAny
import Accumulator.Proofs.Encoding

/-!
# Words in use

The table of opcodes, the decoder and the encoder say three times which words are instructions. They
agree: a word decodes just in case its high byte is in the table (`isSome_decode_iff`), and it is
the encoding of the instruction that it decodes to, but for a halt, whose operand is dropped
(`encode_of_decode`). Since every instruction also comes back from its encoding (`decode_encode`),
programs can be read off their words and words off their programs (`code_law`).
-/

namespace Accumulator.Instruction

variable {w : UInt16} {i : Instruction}

/-! ## The high byte -/

/-- The high byte of a word. -/
def highByte (w : UInt16) : UInt8 :=
  (w >>> 8).toUInt8

/-- The high byte of a word is the quotient by 256. -/
theorem toNat_highByte (w : UInt16) : (highByte w).toNat = w.toNat / 256 := by
  have lt := w.toNat_lt
  rw [highByte, UInt16.toNat_toUInt8, UInt16.toNat_shiftRight]
  simp only [UInt16.reduceToNat, Nat.reduceMod, Nat.shiftRight_eq_div_pow]
  omega

/-- A word that decodes has the opcode of its instruction as its high byte. -/
theorem highByte_of_decode (h : decode? w = some i) : highByte w = i.opcode := by
  rw [← UInt8.toNat_inj, toNat_highByte]
  exact (opcode_of_decode h).1

/-- Every instruction has its opcode in the table. -/
theorem opcode_mem (i : Instruction) : i.opcode ∈ opcodes := by
  have table {o : UInt8} (h : opcodes.contains o = true) : o ∈ opcodes := List.contains_iff_mem.1 h
  cases i with
  | halt | breq _ | brne _ | jump _ | noop _ => exact table rfl
  | load s => cases s <;> exact table rfl
  | store t | zero t | inc t | dec t => cases t <;> exact table rfl
  | add o | sub o | cmp o | bit o => cases o <;> exact table rfl
  | bitwise op o => cases op <;> cases o <;> exact table rfl

/-- **The words in use are those with a high byte in the table.** -/
theorem isSome_decode_iff (w : UInt16) : (decode? w).isSome ↔ highByte w ∈ opcodes := by
  constructor
  · intro h
    obtain ⟨i, hi⟩ := Option.isSome_iff_exists.1 h
    rw [highByte_of_decode hi]
    exact i.opcode_mem
  · intro hmem
    rw [Option.isSome_iff_ne_none]
    intro none
    exact div_not_mem_of_decode none (List.mem_map.2 ⟨highByte w, hmem, toNat_highByte w⟩)

/-! ## Decoded words encode -/

/-- A word that does not decode to a halt is the encoding of what it decodes to. -/
theorem encode_of_decode (h : decode? w = some i) (other : i ≠ .halt) : i.encode = w := by
  obtain ⟨high, halt | low⟩ := opcode_of_decode h
  · exact absurd halt other
  · rw [← UInt16.toNat_inj, toNat_encode, ← high, ← low, Nat.div_add_mod']

/-- A word that decodes to a halt is any with a zero in the high byte. -/
theorem toNat_lt_of_decode_halt (h : decode? w = some .halt) : w.toNat < 256 := by
  have high : w.toNat / 256 = 0 := (opcode_of_decode h).1
  omega

/-- A word whose high byte is not zero does not decode to a halt. -/
theorem ne_halt_of_highByte (h : decode? w = some i) (high : highByte w ≠ 0) : i ≠ .halt := by
  rintro rfl
  exact high (highByte_of_decode h)

/-- Words none of which is a halt are the encodings of what they decode to. -/
theorem map_encode_of_mapM_decode {words : List UInt16}
    (h : ∀ w ∈ words, (decode? w).isSome ∧ highByte w ≠ 0) :
    (words.mapM decode?).map (List.map encode) = some words := by
  induction words with
  | nil => rfl
  | cons w rest ih =>
    obtain ⟨⟨some, high⟩, hrest⟩ := List.forall_mem_cons.1 h
    obtain ⟨i, hi⟩ := Option.isSome_iff_exists.1 some
    obtain ⟨p, hp, back⟩ := Option.map_eq_some_iff.1 (ih hrest)
    rw [List.mapM_cons, hi, hp]
    exact congrArg Option.some
      (congr (congrArg List.cons (encode_of_decode hi (ne_halt_of_highByte hi high))) back)

/-- **Decoder, encoder and table agree.** A word decodes just in case its high byte is in the table
of opcodes. What it decodes to is encoded as the word itself, unless it is a halt, which is encoded
as zero and decoded from any word below 256. Every instruction comes back from its encoding, so
different programs have different words. Words that all decode and have no zero as a high byte come
back from the program that they decode to. -/
theorem code_law :
    (∀ w, (decode? w).isSome ↔ highByte w ∈ opcodes) ∧
    (∀ w i, decode? w = some i →
      (i ≠ .halt → i.encode = w) ∧ (i = .halt → i.encode = 0 ∧ w.toNat < 256)) ∧
    (∀ i : Instruction, decode? i.encode = some i) ∧
    Function.Injective (List.map encode) ∧
    ∀ words : List UInt16, (∀ w ∈ words, (decode? w).isSome ∧ highByte w ≠ 0) →
      (words.mapM decode?).map (List.map encode) = some words := by
  refine ⟨isSome_decode_iff, fun w i h => ⟨encode_of_decode h, ?_⟩, decode_encode, ?_,
    fun words => map_encode_of_mapM_decode⟩
  · rintro rfl
    exact ⟨rfl, toNat_lt_of_decode_halt h⟩
  · refine List.map_injective_iff.2 fun i j same => ?_
    have both := congrArg decode? same
    rw [decode_encode, decode_encode] at both
    exact Option.some.inj both

/-- The first and the last row of the bitwise family, the last one in use of the next family, and
the row that stands alone; the one behind it is not in use. -/
theorem code_law_rows :
    (∀ w ∈ [0x5000, 0x5FFF, 0x65FF, 0xF203], (decode? w).isSome ∧ highByte w ≠ 0) ∧
    ([0x5000, 0x5FFF, 0x65FF, 0xF203].mapM decode?).map (List.map encode) =
      some [0x5000, 0x5FFF, 0x65FF, 0xF203] ∧
    ¬ (decode? 0xF303).isSome ∧
    (encode .halt = 0 ∧ (0x00FF : UInt16).toNat < 256) := by
  obtain ⟨table, back, -, -, lists⟩ := code_law
  have inUse : ∀ w ∈ [0x5000, 0x5FFF, 0x65FF, 0xF203], (decode? w).isSome ∧ highByte w ≠ 0 :=
    List.all_iff_forall_prop.1 (by decide)
  refine ⟨inUse, lists _ inUse, ?_, ?_⟩
  · rw [table]
    decide
  · exact (back 0x00FF .halt rfl).2 rfl

end Accumulator.Instruction
