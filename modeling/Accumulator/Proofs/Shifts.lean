import Mathlib.Data.Nat.Bitwise
import Accumulator.Proofs.Refinement

/-!
# The algebra of shifts and rotations

The amount of a shift or rotation is a whole word. A rotation moves bits along a circle of sixteen
positions (`Table.getLsbD_rol`, `Table.getLsbD_ror`), so amounts add up modulo 16, and a sum that
wraps around is as good as one that does not. A shift multiplies or divides by a power of two
(`Table.toNat_lsl`, `Table.toNat_lsr`), so amounts add up as natural numbers, and bits that have
left the word do not come back. `shift_law` is what this comes to for any two amounts.
-/

namespace Accumulator.BitwiseOp

open Table

variable {i : Nat}

/-! ## Bits -/

/-- Words are equal if their sixteen bits are. -/
theorem eq_of_getLsbD {x y : UInt16}
    (h : ∀ i < 16, x.toBitVec.getLsbD i = y.toBitVec.getLsbD i) : x = y :=
  UInt16.toBitVec_inj.1 (BitVec.eq_of_getLsbD_eq h)

/-- The bits of a word shifted left come from so many positions below. -/
theorem getLsbD_lsl (acc v : UInt16) (hi : i < 16) :
    (lsl.apply acc v).toBitVec.getLsbD i =
      (decide (v.toNat ≤ i) && acc.toBitVec.getLsbD (i - v.toNat)) := by
  have word := toNat_lsl acc v
  rw [modulus] at word
  change (lsl.apply acc v).toNat.testBit i = (_ && acc.toNat.testBit (i - v.toNat))
  rw [word, Nat.testBit_mod_two_pow, Nat.testBit_mul_two_pow, decide_eq_true hi, Bool.true_and]

/-- The bits of a word shifted right come from so many positions above. -/
theorem getLsbD_lsr (acc v : UInt16) (i : Nat) :
    (lsr.apply acc v).toBitVec.getLsbD i = acc.toBitVec.getLsbD (i + v.toNat) := by
  change (lsr.apply acc v).toNat.testBit i = acc.toNat.testBit (i + v.toNat)
  rw [toNat_lsr, Nat.testBit_div_two_pow]

/-! ## Rotations -/

theorem ror_rol (acc v : UInt16) : ror.apply (rol.apply acc v) v = acc := by
  refine eq_of_getLsbD fun i hi => ?_
  rw [getLsbD_ror _ _ hi, getLsbD_rol _ _ (Nat.mod_lt _ (by decide))]
  congr 1
  omega

theorem rol_ror (acc v : UInt16) : rol.apply (ror.apply acc v) v = acc := by
  refine eq_of_getLsbD fun i hi => ?_
  rw [getLsbD_rol _ _ hi, getLsbD_ror _ _ (Nat.mod_lt _ (by decide))]
  congr 1
  omega

/-- The amounts of rotations add up, also where the sum wraps around. -/
theorem rol_rol (acc v w : UInt16) :
    rol.apply (rol.apply acc v) w = rol.apply acc (.ofNat (v.toNat + w.toNat)) := by
  have sum : (UInt16.ofNat (v.toNat + w.toNat)).toNat % 16 = (v.toNat + w.toNat) % 16 := by
    rw [UInt16.toNat_ofNat']
    omega
  refine eq_of_getLsbD fun i hi => ?_
  rw [getLsbD_rol _ _ hi, getLsbD_rol _ _ (Nat.mod_lt _ (by decide)), getLsbD_rol _ _ hi, sum]
  congr 1
  omega

/-- To the right is to the left by what is missing to a full number of turns. -/
theorem ror_eq_rol (acc v : UInt16) :
    ror.apply acc v = rol.apply acc (.ofNat (2 ^ 16 - v.toNat)) := by
  have below : v.toNat < 2 ^ 16 := v.toNat_lt
  have rest : (UInt16.ofNat (2 ^ 16 - v.toNat)).toNat % 16 = (2 ^ 16 - v.toNat) % 16 := by
    rw [UInt16.toNat_ofNat']
    omega
  refine eq_of_getLsbD fun i hi => ?_
  rw [getLsbD_ror _ _ hi, getLsbD_rol _ _ hi, rest]
  congr 1
  omega

/-- A rotation is put together from two shifts: what leaves the word on the left enters it on the
right. If nothing leaves, the shift to the right is by the whole word. -/
theorem rol_eq_or (acc v : UInt16) :
    rol.apply acc v = or.apply (lsl.apply acc (v % 16)) (lsr.apply acc (16 - v % 16)) := by
  have turn : (v % 16).toNat = v.toNat % 16 := UInt16.toNat_mod v 16
  have below : v.toNat % 16 < 16 := Nat.mod_lt _ (by decide)
  have back : (16 - v % 16).toNat = 16 - v.toNat % 16 := by
    have le : v % 16 ≤ 16 := by
      rw [UInt16.le_iff_toNat_le, turn]
      exact below.le
    rw [UInt16.toNat_sub_of_le _ _ le, turn]
    rfl
  refine eq_of_getLsbD fun i hi => ?_
  change _ = (_ ||| _ : BitVec 16).getLsbD i
  rw [BitVec.getLsbD_or, getLsbD_rol _ _ hi, getLsbD_lsl _ _ hi, getLsbD_lsr, turn, back]
  by_cases inner : v.toNat % 16 ≤ i
  · -- the bit comes from the left shift; the right one has moved past the word
    have gone : acc.toBitVec.getLsbD (i + (16 - v.toNat % 16)) = false :=
      BitVec.getLsbD_of_ge _ _ (by omega)
    rw [gone, decide_eq_true inner, Bool.true_and, Bool.or_false]
    congr 1
    omega
  · rw [decide_eq_false inner, Bool.false_and, Bool.false_or]
    congr 1
    omega

/-! ## Shifts -/

/-- The amounts of shifts to the left add up as natural numbers. -/
theorem toNat_lsl_lsl (acc v w : UInt16) :
    (lsl.apply (lsl.apply acc v) w).toNat = acc.toNat * 2 ^ (v.toNat + w.toNat) % 2 ^ 16 := by
  rw [toNat_lsl, toNat_lsl, modulus, Nat.mod_mul_mod, Nat.mul_assoc, ← Nat.pow_add]

/-- From sixteen positions on nothing is left. -/
theorem lsl_lsl_of_le (acc : UInt16) {v w : UInt16} (h : 16 ≤ v.toNat + w.toNat) :
    lsl.apply (lsl.apply acc v) w = 0 := by
  rw [← UInt16.toNat_inj, toNat_lsl_lsl]
  exact Nat.mod_eq_zero_of_dvd ((Nat.pow_dvd_pow 2 h).mul_left _)

/-- The amounts of shifts to the right add up as natural numbers. -/
theorem toNat_lsr_lsr (acc v w : UInt16) :
    (lsr.apply (lsr.apply acc v) w).toNat = acc.toNat / 2 ^ (v.toNat + w.toNat) := by
  rw [toNat_lsr, toNat_lsr, Nat.div_div_eq_div_mul, Nat.pow_add]

/-- A shift to the left and back keeps the low bits, those that do not leave the word. -/
theorem toNat_lsr_lsl (acc v : UInt16) :
    (lsr.apply (lsl.apply acc v) v).toNat = acc.toNat % 2 ^ (16 - v.toNat) := by
  refine Nat.eq_of_testBit_eq fun i => ?_
  rw [Nat.testBit_mod_two_pow]
  change (lsr.apply (lsl.apply acc v) v).toBitVec.getLsbD i = (_ && acc.toBitVec.getLsbD i)
  rw [getLsbD_lsr]
  by_cases stays : i + v.toNat < 16
  · have low : i < 16 - v.toNat := by omega
    rw [getLsbD_lsl _ _ stays, decide_eq_true (Nat.le_add_left _ _), decide_eq_true low,
      Nat.add_sub_cancel]
  · have high : ¬ i < 16 - v.toNat := by omega
    rw [decide_eq_false high, Bool.false_and]
    exact BitVec.getLsbD_of_ge _ _ (Nat.not_lt.1 stays)

/-- **The algebra of shifts and rotations**, for any word and any amounts. The two rotations by an
amount undo each other. Two rotations to the left are one by the sum of the amounts modulo `2 ^ 16`,
and one to the right is one to the left by `2 ^ 16` less the amount. A rotation to the left is the
disjunction of a shift to the left by the amount modulo 16 and one to the right by the rest of 16.
Two shifts to the left multiply by the power of two of the natural sum of their amounts, so that
nothing is left from 16 on; two shifts to the right divide by it. A shift to the left and back keeps
the low bits up to 16 less the amount, and none from 16 on. -/
theorem shift_law (acc v w : UInt16) :
    (ror.apply (rol.apply acc v) v = acc ∧ rol.apply (ror.apply acc v) v = acc) ∧
    rol.apply (rol.apply acc v) w = rol.apply acc (.ofNat (v.toNat + w.toNat)) ∧
    ror.apply acc v = rol.apply acc (.ofNat (2 ^ 16 - v.toNat)) ∧
    rol.apply acc v = or.apply (lsl.apply acc (v % 16)) (lsr.apply acc (16 - v % 16)) ∧
    ((lsl.apply (lsl.apply acc v) w).toNat = acc.toNat * 2 ^ (v.toNat + w.toNat) % 2 ^ 16 ∧
      (16 ≤ v.toNat + w.toNat → lsl.apply (lsl.apply acc v) w = 0)) ∧
    (lsr.apply (lsr.apply acc v) w).toNat = acc.toNat / 2 ^ (v.toNat + w.toNat) ∧
    (lsr.apply (lsl.apply acc v) v).toNat = acc.toNat % 2 ^ (16 - v.toNat) ∧
    (16 ≤ v.toNat → lsr.apply (lsl.apply acc v) v = 0) := by
  refine ⟨⟨ror_rol acc v, rol_ror acc v⟩, rol_rol acc v w, ror_eq_rol acc v, rol_eq_or acc v,
    ⟨toNat_lsl_lsl acc v w, lsl_lsl_of_le acc⟩, toNat_lsr_lsr acc v w, toNat_lsr_lsl acc v,
    fun h => ?_⟩
  rw [← UInt16.toNat_inj, toNat_lsr_lsl, Nat.sub_eq_zero_of_le h, Nat.pow_zero, Nat.mod_one]
  rfl

/-- Amounts whose sum wraps around to zero: the rotations are one by nothing, and yet nothing is
left behind the shifts. -/
theorem shift_law_wrapping :
    16 ≤ (0xFFFF : UInt16).toNat + (1 : UInt16).toNat ∧
    rol.apply (rol.apply 0x8421 0xFFFF) 1 = rol.apply 0x8421 0 ∧
    lsl.apply (lsl.apply 0x8421 0xFFFF) 1 = 0 ∧
    lsr.apply (lsl.apply 0x8421 0xFFFF) 0xFFFF = 0 := by
  have wraps : 16 ≤ (0xFFFF : UInt16).toNat + (1 : UInt16).toNat := by decide
  obtain ⟨-, sum, -, -, ⟨-, shifted⟩, -, -, none⟩ := shift_law 0x8421 0xFFFF 1
  exact ⟨wraps, sum, shifted wraps, none (by decide)⟩

end Accumulator.BitwiseOp
