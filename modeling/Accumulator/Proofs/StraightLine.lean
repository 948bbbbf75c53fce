import Accumulator.Proofs.LastWriter
import Accumulator.Proofs.Placement

/-!
# Code in memory and its straight lines

`Machine.At` says that a machine stands at an instruction of a program whose encoding is in memory,
and `At.step` what happens if that instruction can complete and writes to none of the cells of the
program: the machine executes it and stands at another instruction of the same program. Instructions
one after the other that go on to the next word are a straight line. Its execution is the fold of
its instructions over the machine (`At.line`), with no look at the encoding in between.
-/

namespace Accumulator

/-- An instruction that reads its operand and sets a register, or does nothing: it cannot fault,
goes on to the next word and writes no cell. -/
def Instruction.isPure : Instruction → Bool
  | .load (.immediate _) | .load (.direct _) | .add _ | .sub _ | .cmp _ | .bit _ | .bitwise _ _
  | .noop _ => true
  | .load (.indirect _) | .halt | .store _ | .breq _ | .brne _ | .jump _ | .zero _ | .inc _
  | .dec _ => false

/-- What `Instruction.isPure` stands for. -/
theorem Instruction.parts_of_isPure {i : Instruction} (h : i.isPure = true) (r : Registers)
    (m : Memory) : i.wild? m = none ∧ i.write? r m = none ∧ i.flow r = .next := by
  unfold Instruction.isPure at h
  split at h <;> first | exact ⟨rfl, rfl, rfl⟩ | cases h

namespace Machine

variable {m : Machine} {i : Instruction} {code block : List Instruction} {origin k l : Nat}

/-- The machine behind an instruction that does not stop it. -/
def go (m : Machine) (i : Instruction) : Machine :=
  { m.retired i with phase := .running }

@[simp] theorem registers_go (m : Machine) (i : Instruction) :
    (m.go i).registers = { i.registers m.registers m.memory with
      pc := (i.flow m.registers).target m.registers.pc } := rfl

@[simp] theorem memory_go (m : Machine) (i : Instruction) :
    (m.go i).memory = i.memory m.registers m.memory := rfl

/-! ## One instruction of a program -/

/-- The machine has not stopped and stands at instruction `k` of the program, which is in memory
from `origin` on. -/
structure At (code : List Instruction) (origin k : Nat) (m : Machine) : Prop where
  live : m.phase.isTerminal = false
  fits : origin + code.length ≤ memoryWords
  placed : ∀ j i, code[j]? = some i →
    Instruction.decode? (m.memory.word (origin + j)) = some i
  pc : m.registers.pc.value.toNat = origin + k

/-- A machine sent to the origin of a program that was placed there encoded stands at the first
instruction of it. -/
theorem at_placed {base : Memory} {o : Address} (live : m.phase.isTerminal = false)
    (fits : o.value.toNat + code.length ≤ memoryWords) (pc : m.registers.pc = o)
    (placed : m.memory = base.overlay (code.map Instruction.encode) o.value.toNat) :
    m.At code o.value.toNat 0 := by
  refine ⟨live, fits, fun j i hj => ?_, by rw [pc, Nat.add_zero]⟩
  obtain ⟨inside, rfl⟩ := List.getElem?_eq_some_iff.1 hj
  rw [placed]
  exact Memory.decode_word_overlay fits inside

/-- The instruction does not fault on this machine and writes to no cell of the program. -/
structure Spares (code : List Instruction) (origin : Nat) (m : Machine) (i : Instruction) :
    Prop where
  tame : i.wild? m.memory = none
  away : ∀ a w, i.write? m.registers m.memory = some (a, w) →
    a.value.toNat < origin ∨ origin + code.length ≤ a.value.toNat

/-- An instruction that writes nothing spares every program. -/
theorem Spares.of_silent (tame : i.wild? m.memory = none)
    (silent : i.write? m.registers m.memory = none) : m.Spares code origin i := by
  refine ⟨tame, fun a w hw => ?_⟩
  rw [silent] at hw
  cases hw

/-- An instruction of the program that does not fault is the one that the machine executes. -/
theorem At.executes (h : m.At code origin k) (hi : code[k]? = some i)
    (tame : i.wild? m.memory = none) : m.Executes i := by
  have hk := (List.getElem?_eq_some_iff.1 hi).1
  have inside : m.registers.pc.value.toNat < memoryWords := by
    have fits := h.fits
    have pc := h.pc
    omega
  exact ⟨inside, by rw [word, h.pc]; exact h.placed k i hi, tame⟩

/-- **One instruction of a program**: the machine executes it and stands at another one. -/
theorem At.step (h : m.At code origin k) (hi : code[k]? = some i) (halt : i ≠ .halt)
    (spares : m.Spares code origin i)
    (target : ((i.flow m.registers).target m.registers.pc).value.toNat = origin + l) :
    m.next = m.go i ∧ (m.go i).At code origin l := by
  have executes := h.executes hi spares.tame
  refine ⟨next_of_executes h.live executes halt, rfl, h.fits, fun j i' hj => ?_, target⟩
  rw [← h.placed j i' hj, memory_go, Instruction.memory]
  rcases hw : i.write? m.registers m.memory with _ | ⟨a, w⟩
  · rfl
  · have away := spares.away a w hw
    have hj := (List.getElem?_eq_some_iff.1 hj).1
    dsimp only
    rw [Memory.word_put (Instruction.lt_of_write? spares.tame hw), if_neg (by omega)]

/-! ## Straight lines -/

/-- The instruction goes on to the next word without a fault and writes to no cell of the
program. -/
structure Passes (code : List Instruction) (origin : Nat) (m : Machine) (i : Instruction) : Prop
    extends Spares code origin m i where
  next : i.flow m.registers = .next

/-- The instructions pass one after the other, each on the machine that the ones before it leave. -/
def Straight (code : List Instruction) (origin : Nat) : List Instruction → Machine → Prop
  | [], _ => True
  | i :: rest, m => m.Passes code origin i ∧ Straight code origin rest (m.go i)

/-- A pure instruction passes in every program. -/
theorem Passes.of_isPure (h : i.isPure = true) : m.Passes code origin i := by
  obtain ⟨tame, silent, next⟩ := Instruction.parts_of_isPure h m.registers m.memory
  exact ⟨.of_silent tame silent, next⟩

/-- A store passes if its target is a cell that is not the program's. -/
theorem Passes.store {t : Target} (inside : (t.place m.memory).value.toNat < memoryWords)
    (away : (t.place m.memory).value.toNat < origin ∨
      origin + code.length ≤ (t.place m.memory).value.toNat) :
    m.Passes code origin (.store t) := by
  refine ⟨⟨?_, fun a w hw => ?_⟩, rfl⟩
  · rw [Instruction.wild?, Target.wild?, if_neg (Nat.not_le.2 inside)]
  · cases hw
    exact away

/-- A store to a cell by its number passes if the cell is not the program's. -/
theorem Passes.store_direct {c : UInt8} (away : c.toNat < origin ∨ origin + code.length ≤ c.toNat) :
    m.Passes code origin (.store (.direct c)) := by
  refine .store (Target.place_direct_lt c) ?_
  rwa [Target.place, Memory.toNat_ofByte]

/-- A load through a pointer passes if the pointer names a cell. -/
theorem Passes.load_indirect {p : UInt8} (inside : (m.memory.word p.toNat).toNat < memoryWords) :
    m.Passes code origin (.load (.indirect p)) := by
  refine ⟨.of_silent ?_ rfl, rfl⟩
  rw [Instruction.wild?, LoadOperand.wild?, if_neg (Nat.not_le.2 inside)]

/-- An instruction that passes takes the machine to the next one of the program. -/
theorem Passes.step (h : m.Passes code origin i) (stands : m.At code origin k)
    (hi : code[k]? = some i) : m.next = m.go i ∧ (m.go i).At code origin (k + 1) := by
  have halt : i ≠ .halt := by
    rintro rfl
    cases h.next
  refine stands.step hi halt h.toSpares ?_
  have hk := (List.getElem?_eq_some_iff.1 hi).1
  have fits := stands.fits
  have pc := stands.pc
  rw [h.next, Flow.target, Memory.toNat_next (by omega), pc, Nat.add_assoc]

/-- **A straight line of a program is run by folding it over the machine.** -/
theorem At.line (h : m.At code origin k) (line : block <+: code.drop k)
    (straight : Straight code origin block m) :
    m.after block.length = block.foldl go m ∧
      (block.foldl go m).At code origin (k + block.length) := by
  induction block generalizing m k with
  | nil => exact ⟨rfl, h⟩
  | cons i rest ih =>
    obtain ⟨passes, straight⟩ := straight
    obtain ⟨suffix, cut⟩ := line
    have hi : code[k]? = some i := by
      rw [← Nat.add_zero k, ← List.getElem?_drop, ← cut]
      rfl
    have behind : rest <+: code.drop (k + 1) := by
      rw [← List.tail_drop, ← cut]
      exact List.prefix_append rest suffix
    obtain ⟨next, stands⟩ := passes.step h hi
    obtain ⟨after, there⟩ := ih stands behind straight
    rw [List.length_cons, after_succ, next, after, List.foldl_cons]
    refine ⟨rfl, ?_⟩
    rwa [Nat.add_assoc, Nat.add_comm 1] at there

end Machine
end Accumulator
