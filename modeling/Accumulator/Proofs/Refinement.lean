import Accumulator.Proofs.Decode
import Accumulator.Proofs.Run
import Accumulator.Proofs.Table

/-!
# The machine refines the encoding table

`ofMachine_next` is the simulation of one step: seen in natural numbers, the machine's step is the
table machine's. It is proved row by row from the three parts of an instruction's effect, for
whatever word memory holds at the program counter, so it needs no assumption on the program and
`run_refines_table` carries it through runs of any length.
-/

namespace Accumulator.Table

open Machine

variable {m : Machine} {i : Instruction} {f : Fault}

/-! ## Words in natural numbers -/

/-- A shift to the left is a product modulo the word. -/
theorem toNat_lsl (acc v : UInt16) :
    (BitwiseOp.lsl.apply acc v).toNat = acc.toNat * 2 ^ v.toNat % modulus := by
  simp only [BitwiseOp.apply, modulus]
  split
  next h =>
    have lt : v.toNat < 16 := h
    rw [UInt16.toNat_shiftLeft, Nat.mod_eq_of_lt lt, Nat.shiftLeft_eq]
  next h =>
    -- the power holds a whole word as a factor
    have le : 16 ≤ v.toNat := Nat.not_lt.1 h
    obtain ⟨d, hd⟩ := Nat.exists_eq_add_of_le le
    rw [hd, Nat.pow_add, Nat.mul_left_comm, Nat.mul_mod_right]
    rfl

theorem toNat_lsr (acc v : UInt16) :
    (BitwiseOp.lsr.apply acc v).toNat = acc.toNat / 2 ^ v.toNat := by
  simp only [BitwiseOp.apply]
  split
  next h =>
    have lt : v.toNat < 16 := h
    rw [UInt16.toNat_shiftRight, Nat.mod_eq_of_lt lt, Nat.shiftRight_eq_div_pow]
  next h =>
    have le : 2 ^ 16 ≤ 2 ^ v.toNat := Nat.pow_le_pow_right (by decide) (Nat.not_lt.1 h)
    rw [Nat.div_eq_of_lt (Nat.lt_of_lt_of_le acc.toNat_lt le)]
    rfl

/-- A word is the number made up of its sixteen bits. -/
theorem toNat_eq_ofBits {x : BitVec 16} {b : Fin 16 → Bool}
    (h : ∀ i (hi : i < 16), x.getLsbD i = b ⟨i, hi⟩) : x.toNat = Nat.ofBits b := by
  refine Nat.eq_of_testBit_eq fun i => ?_
  rw [BitVec.testBit_toNat, Nat.testBit_ofBits]
  split
  next hi => exact h i hi
  next hi => exact BitVec.getLsbD_of_ge x i (Nat.not_lt.1 hi)

/-- The bits of a word rotated left, by position. -/
theorem getLsbD_rol (acc v : UInt16) {i : Nat} (hi : i < 16) :
    (BitwiseOp.rol.apply acc v).toBitVec.getLsbD i =
      acc.toBitVec.getLsbD ((i + (16 - v.toNat % 16)) % 16) := by
  have lt := Nat.mod_lt v.toNat (show 16 > 0 by decide)
  change (acc.toBitVec.rotateLeft v.toNat).getLsbD i = _
  rw [BitVec.getLsbD_rotateLeft, Bool.cond_decide, decide_eq_true hi, Bool.true_and]
  split <;> (congr 1; omega)

/-- The bits of a word rotated right, by position. -/
theorem getLsbD_ror (acc v : UInt16) {i : Nat} (hi : i < 16) :
    (BitwiseOp.ror.apply acc v).toBitVec.getLsbD i =
      acc.toBitVec.getLsbD ((i + v.toNat) % 16) := by
  have lt := Nat.mod_lt v.toNat (show 16 > 0 by decide)
  change (acc.toBitVec.rotateRight v.toNat).getLsbD i = _
  rw [BitVec.getLsbD_rotateRight, Bool.cond_decide, decide_eq_true hi, Bool.true_and]
  split <;> (congr 1; omega)

theorem toNat_rol (acc v : UInt16) :
    (BitwiseOp.rol.apply acc v).toNat = rotateLeft acc.toNat v.toNat :=
  toNat_eq_ofBits fun _ hi => getLsbD_rol acc v hi

theorem toNat_ror (acc v : UInt16) :
    (BitwiseOp.ror.apply acc v).toNat = rotateRight acc.toNat v.toNat :=
  toNat_eq_ofBits fun _ hi => getLsbD_ror acc v hi

/-- The bitwise operations on numbers. -/
def bitwise : BitwiseOp → Nat → Nat → Nat
  | .and, acc, v => acc &&& v
  | .or, acc, v => acc ||| v
  | .xor, acc, v => acc ^^^ v
  | .lsl, acc, v => acc * 2 ^ v % modulus
  | .lsr, acc, v => acc / 2 ^ v
  | .rol, acc, v => rotateLeft acc v
  | .ror, acc, v => rotateRight acc v

/-- All bitwise operations, in natural numbers. -/
theorem toNat_apply (op : BitwiseOp) (acc v : UInt16) :
    (op.apply acc v).toNat = bitwise op acc.toNat v.toNat := by
  cases op with
  | and => exact UInt16.toNat_and acc v
  | or => exact UInt16.toNat_or acc v
  | xor => exact UInt16.toNat_xor acc v
  | lsl => exact toNat_lsl acc v
  | lsr => exact toNat_lsr acc v
  | rol => exact toNat_rol acc v
  | ror => exact toNat_ror acc v

/-- Words are compared as numbers. -/
theorem beq_toNat (a b : UInt16) : (a == b) = decide (a.toNat = b.toNat) := by
  rw [Bool.eq_iff_iff, beq_iff_eq, decide_eq_true_iff, UInt16.toNat_inj]

/-! ## The machine behind an instruction -/

section
variable (inside : m.registers.pc.value.toNat < memoryWords)

include inside in
/-- An instruction that changes registers alone and goes on to the next word. -/
theorem ofMachine_registers (hf : i.flow m.registers = .next)
    (hw : i.write? m.registers m.memory = none) :
    ofMachine { m.retired i with phase := .running } = { (ofMachine m).next with
      acc := (i.registers m.registers m.memory).acc.toNat
      flag := (i.registers m.registers m.memory).flag } := by
  simp only [ofMachine, retired, retire, Instruction.done, hf, Flow.target, Instruction.memory, hw,
    Memory.toNat_next inside, State.next]

include inside in
/-- An instruction that changes the accumulator alone. -/
theorem ofMachine_load {v : UInt16} (hf : i.flow m.registers = .next)
    (hw : i.write? m.registers m.memory = none)
    (hr : i.registers m.registers m.memory = { m.registers with acc := v }) :
    ofMachine { m.retired i with phase := .running } = (ofMachine m).load v.toNat := by
  rw [ofMachine_registers inside hf hw, hr]
  rfl

include inside in
/-- An instruction that changes the flag alone. -/
theorem ofMachine_test {b : Bool} (hf : i.flow m.registers = .next)
    (hw : i.write? m.registers m.memory = none)
    (hr : i.registers m.registers m.memory = { m.registers with flag := b }) :
    ofMachine { m.retired i with phase := .running } = (ofMachine m).test b := by
  rw [ofMachine_registers inside hf hw, hr]
  rfl

include inside in
/-- An instruction that changes nothing. -/
theorem ofMachine_next_word (hf : i.flow m.registers = .next)
    (hw : i.write? m.registers m.memory = none)
    (hr : i.registers m.registers m.memory = m.registers) :
    ofMachine { m.retired i with phase := .running } = (ofMachine m).next := by
  rw [ofMachine_registers inside hf hw, hr]
  rfl

/-- An instruction that transfers control. -/
theorem ofMachine_jump {t : UInt8} (hf : i.flow m.registers = .jump (.ofByte t))
    (hw : i.write? m.registers m.memory = none)
    (hr : i.registers m.registers m.memory = m.registers) :
    ofMachine { m.retired i with phase := .running } = (ofMachine m).jump t.toNat := by
  simp only [ofMachine, retired, retire, Instruction.done, hf, Flow.target, Instruction.memory, hw,
    hr, Memory.toNat_ofByte, State.jump]

include inside in
/-- An instruction that writes one cell. -/
theorem ofMachine_write {a : Address} {w : UInt16} (hf : i.flow m.registers = .next)
    (hw : i.write? m.registers m.memory = some (a, w))
    (hr : i.registers m.registers m.memory = m.registers) (ha : a.value.toNat < memoryWords) :
    ofMachine { m.retired i with phase := .running } =
      (ofMachine m).write a.value.toNat w.toNat := by
  have cells : ∀ c, ((m.memory.put a.value.toNat w).word c).toNat =
      Function.update (fun c => (m.memory.word c).toNat) a.value.toNat w.toNat c := by
    intro c
    rw [Memory.word_put ha, Function.update_apply]
    split <;> rfl
  simp only [ofMachine, retired, retire, Instruction.done, hf, Flow.target, Instruction.memory, hw,
    hr, Memory.toNat_next inside, cells]
  rw [State.write, if_pos ha]
  rfl

end

/-! ## Rows -/

/-- The two rows of an instruction with an immediate and a direct form do the same with the value
of the operand. -/
theorem execute_operand (immediate direct : UInt8) (g : State → Nat → State) (o : Operand)
    (hi : ∀ s n, State.execute s immediate.toNat n = g s n)
    (hd : ∀ s n, State.execute s direct.toNat n = g s (s.cell n)) :
    (ofMachine m).execute (o.opcode immediate direct).toNat o.byte.toNat =
      g (ofMachine m) (o.word m.memory).toNat := by
  cases o with
  | immediate v =>
    refine (hi _ _).trans ?_
    rw [Operand.byte, Operand.word, UInt8.toNat_toUInt16]
  | direct c => exact hd _ _

/-- The two rows of an instruction with a direct and an indirect form do the same with the address
of the target. -/
theorem execute_target (direct indirect : UInt8) (g : State → Nat → State) (t : Target)
    (hd : ∀ s n, State.execute s direct.toNat n = g s n)
    (hi : ∀ s n, State.execute s indirect.toNat n = g s (s.cell n)) :
    (ofMachine m).execute (t.opcode direct indirect).toNat t.byte.toNat =
      g (ofMachine m) (t.place m.memory).value.toNat := by
  cases t with
  | direct c =>
    refine (hd _ _).trans ?_
    rw [Target.byte, Target.place, Memory.toNat_ofByte]
  | indirect p => exact hi _ _

/-- The table machine behind an instruction: stopped by its wild pointer, or as the machine is. -/
def outcome (m : Machine) (i : Instruction) : State :=
  match i.wild? m.memory with
  | some f => (ofMachine m).fault f
  | none => ofMachine { m.retired i with phase := .running }

theorem outcome_of_tame (h : i.wild? m.memory = none) :
    outcome m i = ofMachine { m.retired i with phase := .running } := by
  rw [outcome, h]

theorem outcome_of_wild (h : i.wild? m.memory = some f) : outcome m i = (ofMachine m).fault f := by
  rw [outcome, h]

theorem address_toNat (a : Address) : address a.value.toNat = a := by
  rw [address, UInt16.ofNat_toNat]

/-- An instruction that writes a target without reading it. -/
theorem outcome_write {t : Target} {w : UInt16}
    (inside : m.registers.pc.value.toNat < memoryWords)
    (ht : i.wild? m.memory = t.wild? m.memory .write) (hf : i.flow m.registers = .next)
    (hw : i.write? m.registers m.memory = some (t.place m.memory, w))
    (hr : i.registers m.registers m.memory = m.registers) :
    outcome m i = (ofMachine m).write (t.place m.memory).value.toNat w.toNat := by
  by_cases wild : memoryWords ≤ (t.place m.memory).value.toNat
  · rw [Target.wild?, if_pos wild] at ht
    rw [outcome_of_wild ht, State.write, if_neg (Nat.not_lt.2 wild), address_toNat]
  · rw [Target.wild?, if_neg wild] at ht
    rw [outcome_of_tame ht, ofMachine_write inside hf hw hr (Nat.not_le.1 wild)]

/-- An instruction that replaces a target by a function of it. -/
theorem outcome_update {t : Target} {w : UInt16} (g : Nat → Nat)
    (inside : m.registers.pc.value.toNat < memoryWords)
    (ht : i.wild? m.memory = t.wild? m.memory .read) (hf : i.flow m.registers = .next)
    (hw : i.write? m.registers m.memory = some (t.place m.memory, w))
    (hr : i.registers m.registers m.memory = m.registers)
    (hg : w.toNat = g (m.memory.word (t.place m.memory).value.toNat).toNat) :
    outcome m i = (ofMachine m).read (t.place m.memory).value.toNat fun v =>
      (ofMachine m).write (t.place m.memory).value.toNat (g v) := by
  by_cases wild : memoryWords ≤ (t.place m.memory).value.toNat
  · rw [Target.wild?, if_pos wild] at ht
    rw [outcome_of_wild ht, State.read, if_neg (Nat.not_lt.2 wild), address_toNat]
  · rw [Target.wild?, if_neg wild] at ht
    rw [outcome_of_tame ht, ofMachine_write inside hf hw hr (Nat.not_le.1 wild), hg, State.read,
      if_pos (Nat.not_le.1 wild)]
    rfl

/-- The rows of the bitwise operations. -/
theorem execute_bitwise (op : BitwiseOp) (o : Operand) :
    (ofMachine m).execute (Instruction.bitwise op o).opcode.toNat o.byte.toNat =
      (ofMachine m).load (op.apply m.registers.acc (o.word m.memory)).toNat := by
  rw [toNat_apply]
  cases op with
  | and =>
    exact execute_operand 0x50 0x51 (fun s v => s.load (s.acc &&& v)) o (fun _ _ => rfl)
      fun _ _ => rfl
  | or =>
    exact execute_operand 0x54 0x55 (fun s v => s.load (s.acc ||| v)) o (fun _ _ => rfl)
      fun _ _ => rfl
  | xor =>
    exact execute_operand 0x56 0x57 (fun s v => s.load (s.acc ^^^ v)) o (fun _ _ => rfl)
      fun _ _ => rfl
  | lsl =>
    exact execute_operand 0x58 0x59 (fun s v => s.load (s.acc * 2 ^ v % modulus)) o
      (fun _ _ => rfl) fun _ _ => rfl
  | lsr =>
    exact execute_operand 0x5A 0x5B (fun s v => s.load (s.acc / 2 ^ v)) o (fun _ _ => rfl)
      fun _ _ => rfl
  | rol =>
    exact execute_operand 0x5C 0x5D (fun s v => s.load (rotateLeft s.acc v)) o (fun _ _ => rfl)
      fun _ _ => rfl
  | ror =>
    exact execute_operand 0x5E 0x5F (fun s v => s.load (rotateRight s.acc v)) o (fun _ _ => rfl)
      fun _ _ => rfl

/-- The three rows of the load. -/
theorem execute_load (inside : m.registers.pc.value.toNat < memoryWords) (s : LoadOperand) :
    (ofMachine m).execute (Instruction.load s).opcode.toNat s.byte.toNat =
      outcome m (.load s) := by
  have tame (h : Instruction.wild? m.memory (.load s) = none) :
      outcome m (.load s) = (ofMachine m).load (s.word m.memory).toNat := by
    rw [outcome_of_tame h, ofMachine_load inside rfl rfl rfl]
  cases s with
  | immediate v =>
    rw [tame rfl, LoadOperand.word, UInt8.toNat_toUInt16]
    rfl
  | direct c =>
    rw [tame rfl]
    rfl
  | indirect p =>
    change (ofMachine m).read (m.memory.word p.toNat).toNat (ofMachine m).load = _
    by_cases wild : memoryWords ≤ (m.memory.word p.toNat).toNat
    · have h : Instruction.wild? m.memory (.load (.indirect p)) =
          some (.outOfBounds ⟨m.memory.word p.toNat⟩ .read) := if_pos wild
      rw [outcome_of_wild h, State.read, if_neg (Nat.not_lt.2 wild),
        address_toNat ⟨m.memory.word p.toNat⟩]
    · rw [tame (if_neg wild), State.read, if_pos (Nat.not_le.1 wild)]
      rfl

/-- **The row of an instruction's opcode byte is the instruction.** -/
theorem execute_opcode (inside : m.registers.pc.value.toNat < memoryWords) (hi : i ≠ .halt) :
    (ofMachine m).execute i.opcode.toNat i.operand.toNat = outcome m i := by
  cases i with
  | halt => exact absurd rfl hi
  | load s => exact execute_load inside s
  | store t =>
    rw [outcome_write inside rfl rfl rfl rfl]
    exact execute_target 0x12 0x13 (fun s a => s.write a s.acc) t (fun _ _ => rfl) fun _ _ => rfl
  | zero t =>
    rw [outcome_write inside rfl rfl rfl rfl]
    exact execute_target 0x60 0x61 (fun s a => s.write a 0) t (fun _ _ => rfl) fun _ _ => rfl
  | inc t =>
    rw [outcome_update (fun v => (v + 1) % modulus) inside rfl rfl rfl rfl (UInt16.toNat_add _ _)]
    exact execute_target 0x62 0x63
      (fun s a => s.read a fun v => s.write a ((v + 1) % modulus)) t (fun _ _ => rfl)
      fun _ _ => rfl
  | dec t =>
    have hg (v : UInt16) : (v - 1).toNat = (v.toNat + (modulus - 1)) % modulus := by
      rw [UInt16.toNat_sub, Nat.add_comm]
      rfl
    rw [outcome_update (fun v => (v + (modulus - 1)) % modulus) inside rfl rfl rfl rfl (hg _)]
    exact execute_target 0x64 0x65
      (fun s a => s.read a fun v => s.write a ((v + (modulus - 1)) % modulus)) t (fun _ _ => rfl)
      fun _ _ => rfl
  | add o =>
    rw [outcome_of_tame rfl, ofMachine_load inside rfl rfl rfl, UInt16.toNat_add]
    exact execute_operand 0x20 0x21 (fun s v => s.load ((s.acc + v) % modulus)) o
      (fun _ _ => rfl) fun _ _ => rfl
  | sub o =>
    rw [outcome_of_tame rfl, ofMachine_load inside rfl rfl rfl, UInt16.toNat_sub, Nat.add_comm]
    exact execute_operand 0x24 0x25 (fun s v => s.load ((s.acc + (modulus - v)) % modulus)) o
      (fun _ _ => rfl) fun _ _ => rfl
  | cmp o =>
    rw [outcome_of_tame rfl, ofMachine_test inside rfl rfl rfl, beq_toNat]
    exact execute_operand 0x26 0x27 (fun s v => s.test (s.acc = v)) o (fun _ _ => rfl)
      fun _ _ => rfl
  | bit o =>
    rw [outcome_of_tame rfl, ofMachine_test inside rfl rfl rfl, beq_toNat, UInt16.toNat_and]
    exact execute_operand 0x52 0x53 (fun s v => s.test (s.acc &&& v = 0)) o (fun _ _ => rfl)
      fun _ _ => rfl
  | bitwise op o =>
    rw [outcome_of_tame rfl, ofMachine_load inside rfl rfl rfl]
    exact execute_bitwise op o
  | breq t =>
    rw [outcome_of_tame rfl]
    change (if m.registers.flag then (ofMachine m).jump t.toNat else (ofMachine m).next) = _
    cases hf : m.registers.flag with
    | true => exact (ofMachine_jump (by rw [Instruction.flow, hf]; rfl) rfl rfl).symm
    | false => exact (ofMachine_next_word inside (by rw [Instruction.flow, hf]; rfl) rfl rfl).symm
  | brne t =>
    rw [outcome_of_tame rfl]
    change (if m.registers.flag then (ofMachine m).next else (ofMachine m).jump t.toNat) = _
    cases hf : m.registers.flag with
    | true => exact (ofMachine_next_word inside (by rw [Instruction.flow, hf]; rfl) rfl rfl).symm
    | false => exact (ofMachine_jump (by rw [Instruction.flow, hf]; rfl) rfl rfl).symm
  | jump t =>
    rw [outcome_of_tame rfl, ofMachine_jump rfl rfl rfl]
    rfl
  | noop w =>
    rw [outcome_of_tame rfl, ofMachine_next_word inside rfl rfl rfl]
    rfl

/-! ## Steps and runs -/

/-- The row of a high byte that is no opcode byte. -/
theorem execute_unused {s : State} {high : Nat} (n : Nat)
    (h : high ∉ Instruction.opcodes.map UInt8.toNat) :
    s.execute high n = s.fault (.invalidOpcode (address s.pc) (.ofNat (s.cell s.pc))) := by
  unfold State.execute
  split
  case h_39 => rfl
  all_goals exact absurd (by decide) h

theorem step_of_terminal (h : m.phase.isTerminal = true) : (ofMachine m).step = ofMachine m := by
  cases hp : m.phase with
  | ready | running => rw [hp] at h; cases h
  | halted | faulted f => simp only [State.step, ofMachine, hp]

/-- A table machine with its program counter outside memory fails to fetch. -/
theorem step_of_outside (live : m.phase.isTerminal = false)
    (h : memoryWords ≤ m.registers.pc.value.toNat) :
    (ofMachine m).step = (ofMachine m).fault (.outOfBounds m.registers.pc .fetch) := by
  cases hp : m.phase with
  | ready | running =>
    simp only [State.step, ofMachine, hp, if_neg (Nat.not_lt.2 h), address_toNat]
  | halted | faulted f => rw [hp] at live; cases live

/-- Otherwise it executes the row of the high byte, with the low byte as the operand. -/
theorem step_of_inside (live : m.phase.isTerminal = false)
    (h : m.registers.pc.value.toNat < memoryWords) :
    (ofMachine m).step = (ofMachine m).execute (m.word.toNat / 256) (m.word.toNat % 256) := by
  cases hp : m.phase with
  | ready | running =>
    simp only [State.step, ofMachine, hp, Machine.word]
    rw [if_pos h]
  | halted | faulted f => rw [hp] at live; cases live

/-- A decoded instruction is executed in its own row. -/
theorem step_of_decode (live : m.phase.isTerminal = false)
    (inside : m.registers.pc.value.toNat < memoryWords)
    (decodes : Instruction.decode? m.word = some i) (hi : i ≠ .halt) :
    (ofMachine m).step = outcome m i := by
  obtain ⟨high, low⟩ := opcode_of_decode decodes
  rw [step_of_inside live inside, high, low.resolve_left hi, execute_opcode inside hi]

/-- **Seen in natural numbers, a step is the table machine's step.** -/
theorem ofMachine_next (m : Machine) : ofMachine m.next = (ofMachine m).step := by
  cases live : m.phase.isTerminal with
  | true => rw [next_of_terminal live, step_of_terminal live]
  | false =>
    obtain ⟨i, hi⟩ | ⟨f, hf⟩ := m.executes_or_blocked
    · by_cases halt : i = .halt
      · subst halt
        rw [next_of_halt live hi, step_of_inside live hi.inside, (opcode_of_decode hi.decodes).1]
        rfl
      · rw [next_of_executes live hi halt, step_of_decode live hi.inside hi.decodes halt,
          outcome_of_tame hi.tame]
    · rw [next_of_blocked live hf]
      cases hf with
      | fetch outside => rw [step_of_outside live outside]; rfl
      | opcode inside decodes =>
        have pc : address (ofMachine m).pc = m.registers.pc := address_toNat m.registers.pc
        have word : UInt16.ofNat ((ofMachine m).cell (ofMachine m).pc) = m.word :=
          UInt16.ofNat_toNat
        rw [step_of_inside live inside, execute_unused _ (div_not_mem_of_decode decodes), pc, word]
        rfl
      | @pointer i _ _ inside decodes hp wild =>
        have halt : i ≠ .halt := by rintro rfl; cases hp
        rw [step_of_decode live inside decodes halt,
          outcome_of_wild (Instruction.wild?_eq_some_iff.2 ⟨_, _, hp, wild, rfl⟩)]
        rfl

/-- Seen in natural numbers, a run is the iterated step of the table machine. -/
theorem ofMachine_after (n : Nat) (m : Machine) :
    ofMachine (m.after n) = State.step^[n] (ofMachine m) := by
  induction n generalizing m with
  | zero => rfl
  | succ n ih => rw [after_succ, ih, ofMachine_next, Function.iterate_succ_apply]

/-- **A run of the machine is the iterated step of the table machine**, with the same registers,
memory, phase and status, for every machine and every budget. -/
theorem run_refines_table (m : Machine) (n : Nat) :
    ofMachine (m.run n).2 = State.step^[n] (ofMachine m) ∧
      (m.run n).1 = (State.step^[n] (ofMachine m)).status := by
  rw [run_eq]
  refine ⟨ofMachine_after n m, ?_⟩
  rw [← ofMachine_after]
  cases hp : (m.after n).phase <;> simp only [Machine.status, State.status, ofMachine, hp]

end Accumulator.Table
