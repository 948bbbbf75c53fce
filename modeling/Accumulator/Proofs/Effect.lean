import Accumulator.Machine.Step
import Accumulator.Proofs.Memory

/-!
# The effect of an instruction, part by part

An instruction fails only through a pointer cell that holds an address outside memory. Its effect
is therefore a test of that one cell (`Instruction.wild?`) in front of three total functions of the
machine before it: where control goes (`Instruction.flow`), the registers it leaves
(`Instruction.registers`) and the one word it writes, if any (`Instruction.write?`).
`Instruction.effect_eq` is that decomposition; nothing later opens `Instruction.effect`.
-/

namespace Accumulator

variable {r : Registers} {m : Memory} {f : Fault}

/-! ## Operands and targets -/

/-- The value of an operand, zero where its pointer leaves memory. -/
def LoadOperand.word (m : Memory) : LoadOperand → UInt16
  | .immediate v => v.toUInt16
  | .direct c => m.word c.toNat
  | .indirect p => m.word (m.word p.toNat).toNat

/-- The value of an operand. -/
def Operand.word (m : Memory) : Operand → UInt16
  | .immediate v => v.toUInt16
  | .direct c => m.word c.toNat

/-- The address that a target names. -/
def Target.place (m : Memory) : Target → Address
  | .direct c => .ofByte c
  | .indirect p => ⟨m.word p.toNat⟩

/-- A pointer cell is read without a fault, since its number is a byte. -/
theorem Memory.pointer_eq (p : UInt8) : m.pointer p = .ok ⟨m.word p.toNat⟩ := by
  simp only [Memory.pointer, Memory.read_ofByte]
  rfl

/-- An operand is read without a fault: it is in the instruction or in a cell named by a byte. -/
theorem Operand.value_eq (o : Operand) : o.value m = .ok (o.word m) := by
  cases o with
  | immediate v => rfl
  | direct c => exact Memory.read_ofByte c

/-- The address of a target is found without a fault; only the access to it can fail. -/
theorem Target.address_eq (t : Target) : t.address m = .ok (t.place m) := by
  cases t with
  | direct c => rfl
  | indirect p => exact Memory.pointer_eq p

/-- A direct target names a cell. -/
theorem Target.place_direct_lt (c : UInt8) :
    ((Target.direct c).place m).value.toNat < memoryWords :=
  Memory.ofByte_lt c

/-! ## Wild pointers -/

/-- The fault of an operand whose pointer cell holds an address outside memory. -/
def LoadOperand.wild? (m : Memory) : LoadOperand → Option Fault
  | .indirect p =>
    if memoryWords ≤ (m.word p.toNat).toNat then some (.outOfBounds ⟨m.word p.toNat⟩ .read)
    else none
  | _ => none

/-- The fault of a target outside memory, whose first access is of the given kind. -/
def Target.wild? (m : Memory) (access : Access) (t : Target) : Option Fault :=
  if memoryWords ≤ (t.place m).value.toNat then some (.outOfBounds (t.place m) access) else none

/-- The fault of an instruction in the memory it is executed in. -/
def Instruction.wild? (m : Memory) : Instruction → Option Fault
  | .load s => s.wild? m
  | .store t | .zero t => t.wild? m .write
  | .inc t | .dec t => t.wild? m .read
  | _ => none

/-- The pointer cell of an instruction with an indirect operand, and what the first access through
it is for. -/
def Instruction.pointer? : Instruction → Option (UInt8 × Access)
  | .load (.indirect p) | .inc (.indirect p) | .dec (.indirect p) => some (p, .read)
  | .store (.indirect p) | .zero (.indirect p) => some (p, .write)
  | _ => none

/-- The five instructions with an indirect operand. -/
theorem Instruction.pointer?_eq_some_iff {i : Instruction} {p : UInt8} {access : Access} :
    i.pointer? = some (p, access) ↔
      access = .read ∧ (i = .load (.indirect p) ∨ i = .inc (.indirect p) ∨
        i = .dec (.indirect p)) ∨
      access = .write ∧ (i = .store (.indirect p) ∨ i = .zero (.indirect p)) := by
  constructor
  · intro h
    unfold pointer? at h
    split at h <;> cases h <;> simp
  · rintro (⟨rfl, rfl | rfl | rfl⟩ | ⟨rfl, rfl | rfl⟩) <;> rfl

/-- A load is wild if it goes through a pointer that names no cell. -/
theorem LoadOperand.wild?_eq_some_iff {s : LoadOperand} :
    s.wild? m = some f ↔ ∃ p, s = .indirect p ∧
      memoryWords ≤ (m.word p.toNat).toNat ∧ f = .outOfBounds ⟨m.word p.toNat⟩ .read := by
  cases s with
  | immediate v => simp [wild?]
  | direct c => simp [wild?]
  | indirect p => simp [wild?, eq_comm (a := f)]

/-- An access to a target is wild if the target is named through a pointer that names no cell. -/
theorem Target.wild?_eq_some_iff {t : Target} {access : Access} :
    t.wild? m access = some f ↔ ∃ p, t = .indirect p ∧
      memoryWords ≤ (m.word p.toNat).toNat ∧ f = .outOfBounds ⟨m.word p.toNat⟩ access := by
  cases t with
  | direct c =>
    have h := place_direct_lt (m := m) c
    simp only [wild?, if_neg (Nat.not_le.2 h), reduceCtorEq, false_iff]
    rintro ⟨p, hp, -⟩
    cases hp
  | indirect p =>
    rw [wild?, Option.ite_none_right_eq_some]
    simp [place, eq_comm (a := f)]

/-- An instruction faults through its pointer cell or not at all. -/
theorem Instruction.wild?_eq_some_iff {i : Instruction} :
    i.wild? m = some f ↔ ∃ p access, i.pointer? = some (p, access) ∧
      memoryWords ≤ (m.word p.toNat).toNat ∧ f = .outOfBounds ⟨m.word p.toNat⟩ access := by
  cases i with
  | load s =>
    rw [wild?, LoadOperand.wild?_eq_some_iff]
    cases s <;> simp [pointer?, and_assoc]
  | store t | zero t | inc t | dec t =>
    rw [wild?, Target.wild?_eq_some_iff]
    cases t <;> simp [pointer?, and_assoc]
  | halt | add _ | sub _ | cmp _ | breq _ | brne _ | jump _ | bitwise _ _ | bit _ | noop _ =>
    simp [wild?, pointer?]

/-! ## The three parts of an effect -/

/-- Where control goes behind an instruction. -/
def Instruction.flow (r : Registers) : Instruction → Flow
  | .halt => .halt
  | .breq t => if r.flag then .jump (.ofByte t) else .next
  | .brne t => if r.flag then .next else .jump (.ofByte t)
  | .jump t => .jump (.ofByte t)
  | _ => .next

/-- The registers that an instruction leaves, the program counter still on the instruction. -/
def Instruction.registers (r : Registers) (m : Memory) : Instruction → Registers
  | .load s => { r with acc := s.word m }
  | .add o => { r with acc := r.acc + o.word m }
  | .sub o => { r with acc := r.acc - o.word m }
  | .bitwise op o => { r with acc := op.apply r.acc (o.word m) }
  | .cmp o => { r with flag := r.acc == o.word m }
  | .bit o => { r with flag := r.acc &&& o.word m == 0 }
  | _ => r

/-- The address that an instruction writes and the word it leaves there. -/
def Instruction.write? (r : Registers) (m : Memory) : Instruction → Option (Address × UInt16)
  | .store t => some (t.place m, r.acc)
  | .zero t => some (t.place m, 0)
  | .inc t => some (t.place m, m.word (t.place m).value.toNat + 1)
  | .dec t => some (t.place m, m.word (t.place m).value.toNat - 1)
  | _ => none

/-- The memory that an instruction leaves. -/
def Instruction.memory (r : Registers) (m : Memory) (i : Instruction) : Memory :=
  match i.write? r m with
  | some (a, w) => m.put a.value.toNat w
  | none => m

/-- The effect of an instruction that does not fault. -/
def Instruction.done (r : Registers) (m : Memory) (i : Instruction) : Effect :=
  ⟨i.flow r, i.registers r m, i.memory r m⟩

/-- The value of an operand, or the fault of its pointer cell. -/
theorem LoadOperand.value_eq (s : LoadOperand) :
    s.value m = match s.wild? m with
      | some f => .error f
      | none => .ok (s.word m) := by
  cases s with
  | immediate v => rfl
  | direct c => exact Memory.read_ofByte c
  | indirect p =>
    simp only [value, Memory.pointer_eq, bind, Except.bind, wild?, word]
    by_cases h : memoryWords ≤ (m.word p.toNat).toNat
    · rw [if_pos h, Memory.read_of_le (a := ⟨m.word p.toNat⟩) h]
    · rw [if_neg h, Memory.read_of_lt (a := ⟨m.word p.toNat⟩) (Nat.not_le.1 h)]

/-- A write to a target, or the fault of its pointer cell. -/
theorem Target.write_eq (t : Target) (w : UInt16) :
    m.write (t.place m) w = match t.wild? m .write with
      | some f => .error f
      | none => .ok (m.put (t.place m).value.toNat w) := by
  rw [wild?]
  by_cases h : memoryWords ≤ (t.place m).value.toNat
  · rw [if_pos h, Memory.write_of_le h]
  · rw [if_neg h, Memory.write_of_lt (Nat.not_le.1 h)]

/-- An update of a target, or the fault of its pointer cell. The read comes before the write, so
it is the read that fails. -/
theorem Target.update_eq (t : Target) (g : UInt16 → UInt16) :
    t.update r m g = match t.wild? m .read with
      | some f => .error f
      | none => .ok ⟨.next, r,
          m.put (t.place m).value.toNat (g (m.word (t.place m).value.toNat))⟩ := by
  simp only [update, address_eq, bind, Except.bind, wild?]
  by_cases h : memoryWords ≤ (t.place m).value.toNat
  · simp only [Memory.read_of_le h, if_pos h]
  · simp only [Memory.read_of_lt (Nat.not_le.1 h), Memory.write_of_lt (Nat.not_le.1 h), if_neg h]
    rfl

/-- An instruction meets the fault of its pointer cell, or has its three-part effect. -/
theorem Instruction.effect_eq (r : Registers) (m : Memory) (i : Instruction) :
    i.effect r m = match i.wild? m with
      | some f => .error f
      | none => .ok (i.done r m) := by
  cases i with
  | halt | breq _ | brne _ | jump _ | noop _ => rfl
  | add o | sub o | cmp o | bit o | bitwise _ o =>
    simp only [effect, Operand.value_eq, wild?]
    rfl
  | load s =>
    simp only [effect, LoadOperand.value_eq, wild?]
    cases s.wild? m <;> rfl
  | store t | zero t =>
    simp only [effect, Target.address_eq, bind, Except.bind, Target.write_eq, wild?]
    cases t.wild? m .write <;> rfl
  | inc t | dec t =>
    simp only [effect, Target.update_eq, wild?]
    cases t.wild? m .read <;> rfl

end Accumulator
