import Mathlib.Data.Nat.Fib.Basic
import Accumulator.Image.Fibonacci
import Accumulator.Proofs.Budget
import Accumulator.Proofs.StraightLine

/-!
# The built-in image fills its table

The program is three straight lines around one branch: a prologue that sets the pointer and the
first terms, the advance of the pointer with the test for the end of the table, and the rotation
that writes the next term. Memory at an instruction of it is a function of three things: the memory
that the program was placed in, the number of the last cell filled and the cell that the pointer is
at (`cells`). `Reached` is the loop invariant, with one lemma for each of the three lines, for the
branch and for the jump; `Reached.turn` is one turn of the loop and `Reached.loop` all of them.
Nothing is asked of the machine but that it has not stopped: the program reads no register and no
cell that it has not set before.
-/

namespace Accumulator.Image.Fibonacci

open Machine

variable {m : Machine} {base : Memory} {j p c : Nat}

/-! ## The instructions of the image -/

/-- The pointer is set to the table, the two terms and the first cell of the table to one. -/
def prologue : List Instruction :=
  [.load (.immediate 0x80), .store (.direct 0x9F), .load (.immediate 1), .store (.direct 0x90),
    .store (.direct 0x91), .store (.indirect 0x9F)]

/-- The pointer moves to the next cell and is compared with the end of the table. -/
def advance : List Instruction :=
  [.load (.direct 0x9F), .add (.immediate 1), .store (.direct 0x9F), .cmp (.immediate 0x90)]

/-- The sum of the two terms goes into the table through the pointer and becomes the last term. -/
def rotation : List Instruction :=
  [.load (.direct 0x90), .add (.direct 0x91), .store (.indirect 0x9F), .load (.direct 0x91),
    .store (.direct 0x90), .load (.indirect 0x9F), .store (.direct 0x91)]

/-- The program before its encoding. -/
def program : List Instruction :=
  prologue ++ advance ++ [.breq 0x13] ++ rotation ++ [.jump 0x06, .halt]

/-- The words of the image are the program, encoded. -/
theorem image_eq : image = program.map Instruction.encode := by decide

/-! ## Memory at an instruction -/

/-- The Fibonacci numbers as words. -/
def term (n : Nat) : UInt16 :=
  .ofNat (Nat.fib n)

/-- The recurrence of the Fibonacci numbers also holds modulo the word. -/
theorem term_add (n : Nat) : term n + term (n + 1) = term (n + 2) := by
  rw [term, term, term, Nat.fib_add_two, UInt16.ofNat_add]

/-- The address of a cell of the table, or of the cell behind its end. -/
def place (p : Nat) : UInt16 :=
  .ofNat (0x80 + p)

theorem place_succ (p : Nat) : place p + 1 = place (p + 1) := by
  rw [place, place, ← Nat.add_assoc, UInt16.ofNat_add (0x80 + p)]
  rfl

theorem toNat_place (h : p ≤ 16) : (place p).toNat = 0x80 + p :=
  UInt16.toNat_ofNat_of_lt' (Nat.lt_of_le_of_lt (Nat.add_le_add_left h _) (by decide))

/-- The pointer is at the end of the table behind the sixteenth cell. -/
theorem place_beq_end (h : p ≤ 16) : (place p == 0x90) = decide (p = 16) := by
  rw [Bool.eq_iff_iff, beq_iff_eq, decide_eq_true_iff, ← UInt16.toNat_inj, toNat_place h]
  exact Nat.add_left_cancel_iff (n := 0x80) (k := 16)

/-- The word of a cell when the pointer is at cell `p` of the table and cell `j` is the last one
filled. Cells that the program does not write are as in the memory it was placed in. -/
def cells (base : Memory) (j p c : Nat) : UInt16 :=
  if c = 0x9F then place p
  else if c = 0x90 then term (j + 1)
  else if c = 0x91 then term (j + 2)
  else if 0x80 ≤ c ∧ c ≤ 0x80 + j then term (c - 0x7E)
  else base.word c

/-- The stores of the prologue, the last one first, make the memory that the loop starts from. -/
theorem cells_prologue (base : Memory) (c : Nat) :
    cells base 0 0 c =
      if c = 0x80 then 1
      else if c = 0x91 then 1
      else if c = 0x90 then 1
      else if c = 0x9F then 0x80
      else base.word c := by
  have first : term 1 = 1 ∧ term 2 = 1 ∧ place 0 = 0x80 := ⟨rfl, rfl, rfl⟩
  grind [cells]

/-- The advance changes the pointer cell alone. -/
theorem cells_advance (base : Memory) (j p c : Nat) :
    cells base j (p + 1) c = if c = 0x9F then place p + 1 else cells base j p c := by
  grind [cells, place_succ]

/-- The stores of a rotation, the last one first, make the memory with one more cell filled. -/
theorem cells_rotation (base : Memory) (p c : Nat) (h : j < 15) :
    cells base (j + 1) p c =
      if c = 0x91 then term (j + 1) + term (j + 2)
      else if c = 0x90 then term (j + 2)
      else if c = 0x80 + (j + 1) then term (j + 1) + term (j + 2)
      else cells base j p c := by
  grind [cells, term_add]

/-! ## The lines of the program -/

/-- The machine stands at instruction `k` of the program, with the memory that belongs to it. -/
structure Reached (base : Memory) (j p k : Nat) (m : Machine) : Prop where
  here : m.At program 0 k
  memory : ∀ c < memoryWords, m.memory.word c = cells base j p c

-- What `simp` needs to read the memory and the registers off the fold of a line.
attribute [local simp] Instruction.memory Instruction.registers Instruction.write? Target.place
  LoadOperand.word Operand.word Memory.toNat_ofByte Memory.word_put

/-- The prologue takes a machine at the start of the program to the head of the loop. -/
theorem reached_prologue (here : m.At program 0 0x00) : Reached m.memory 0 0 0x06 (m.after 6) := by
  have straight : Straight program 0 prologue m := by
    refine ⟨.of_isPure rfl, .store_direct (by decide), .of_isPure rfl, .store_direct (by decide),
      .store_direct (by decide), .store ?_ (.inr ?_), trivial⟩
    all_goals
      simp (disch := decide)
      decide
  obtain ⟨after, there⟩ : m.after 6 = prologue.foldl go m ∧
      (prologue.foldl go m).At program 0 0x06 := here.line (by decide) straight
  rw [after]
  refine ⟨there, fun c hc => ?_⟩
  rw [cells_prologue]
  simp (disch := decide) [prologue]

namespace Reached

/-- From the head of the loop to the branch. -/
theorem advance (h : Reached base j j 0x06 m) (hj : j < 16) :
    Reached base j (j + 1) 0x0A (m.after 4) ∧
      (m.after 4).registers.acc = place (j + 1) ∧
      (m.after 4).registers.flag = decide (j = 15) := by
  have straight : Straight program 0 Fibonacci.advance m :=
    ⟨.of_isPure rfl, .of_isPure rfl, .store_direct (by decide), .of_isPure rfl, trivial⟩
  have pointer : m.memory.word 0x9F = place j := h.memory 0x9F (by decide)
  obtain ⟨after, there⟩ : m.after 4 = Fibonacci.advance.foldl go m ∧
      (Fibonacci.advance.foldl go m).At program 0 0x0A := h.here.line (by decide) straight
  rw [after]
  refine ⟨⟨there, fun c hc => ?_⟩, ?_⟩
  · rw [cells_advance, ← h.memory c hc]
    simp (disch := decide) [Fibonacci.advance, pointer]
  · have bound := place_beq_end (p := j + 1) (by omega)
    simp (disch := decide) [Fibonacci.advance, pointer, place_succ, bound]

/-- The loop goes on while the flag is clear. -/
theorem stay (h : Reached base j p 0x0A m) (flag : m.registers.flag = false) :
    Reached base j p 0x0B m.next := by
  have flow : Instruction.flow m.registers (.breq 0x13) = .next := by
    rw [Instruction.flow, flag]
    rfl
  obtain ⟨next, there⟩ : m.next = m.go (.breq 0x13) ∧ (m.go (.breq 0x13)).At program 0 0x0B :=
    Passes.step ⟨.of_silent rfl rfl, flow⟩ h.here rfl
  rw [next]
  exact ⟨there, h.memory⟩

/-- The loop is left when the flag is set. -/
theorem exit (h : Reached base j p 0x0A m) (flag : m.registers.flag = true) :
    Reached base j p 0x13 m.next ∧
      m.next.registers.acc = m.registers.acc ∧ m.next.registers.flag = true := by
  have flow : Instruction.flow m.registers (.breq 0x13) = .jump (.ofByte 0x13) := by
    rw [Instruction.flow, flag]
    rfl
  obtain ⟨next, there⟩ : m.next = m.go (.breq 0x13) ∧ (m.go (.breq 0x13)).At program 0 0x13 :=
    h.here.step rfl (by decide) (.of_silent rfl rfl) (by rw [flow]; rfl)
  rw [next]
  exact ⟨⟨there, h.memory⟩, rfl, flag⟩

/-- From behind the branch to the jump. The store through the pointer hits the next cell of the
table, which is none of the three cells that the line goes on to read. -/
theorem rotation (h : Reached base j (j + 1) 0x0B m) (hj : j < 15) :
    Reached base (j + 1) (j + 1) 0x12 (m.after 7) := by
  have pointer : m.memory.word 0x9F = place (j + 1) := h.memory 0x9F (by decide)
  have lag : m.memory.word 0x90 = term (j + 1) := h.memory 0x90 (by decide)
  have lead : m.memory.word 0x91 = term (j + 2) := h.memory 0x91 (by decide)
  have cell := toNat_place (p := j + 1) (by omega)
  have inside : 0x80 + (j + 1) < memoryWords := by unfold memoryWords; omega
  have notLag : 0x80 + (j + 1) ≠ 0x90 := by omega
  have notLead : 0x91 ≠ 0x80 + (j + 1) := by omega
  have notPointer : 0x9F ≠ 0x80 + (j + 1) := by omega
  have straight : Straight program 0 Fibonacci.rotation m := by
    refine ⟨.of_isPure rfl, .of_isPure rfl, .store ?_ (.inr ?_), .of_isPure rfl,
      .store_direct (by decide), .load_indirect ?_, .store_direct (by decide), trivial⟩
    · simpa [pointer, cell] using inside
    · have below : program.length ≤ 0x80 := by decide
      simpa [pointer, cell] using below.trans (Nat.le_add_right _ _)
    · simpa (disch := first | decide | assumption) [pointer, cell, notPointer] using inside
  obtain ⟨after, there⟩ : m.after 7 = Fibonacci.rotation.foldl go m ∧
      (Fibonacci.rotation.foldl go m).At program 0 0x12 := h.here.line (by decide) straight
  rw [after]
  refine ⟨there, fun c hc => ?_⟩
  rw [cells_rotation base _ _ hj, ← h.memory c hc]
  simp (disch := first | decide | assumption) [Fibonacci.rotation, pointer, lag, lead, cell,
    notPointer, notLag, notLead]

/-- From the end of the loop back to its head. -/
theorem jump (h : Reached base j p 0x12 m) : Reached base j p 0x06 m.next := by
  obtain ⟨next, there⟩ : m.next = m.go (.jump 0x06) ∧ (m.go (.jump 0x06)).At program 0 0x06 :=
    h.here.step rfl (by decide) (.of_silent rfl rfl) rfl
  rw [next]
  exact ⟨there, h.memory⟩

/-! ## The loop -/

/-- One turn of the loop fills one more cell. -/
theorem turn (h : Reached base j j 0x06 m) (hj : j < 15) :
    Reached base (j + 1) (j + 1) 0x06 (m.after 13) := by
  obtain ⟨fork, -, flag⟩ := h.advance (by omega)
  rw [decide_eq_false (by omega)] at flag
  have tail := ((fork.stay flag).rotation hj).jump
  rwa [← after_succ', ← after_succ', ← after_add] at tail

/-- All turns of the loop, by induction on their number. -/
theorem loop (h : Reached base 0 0 0x06 m) (hj : j ≤ 15) :
    Reached base j j 0x06 (m.after (13 * j)) := by
  induction j with
  | zero => exact h
  | succ j ih =>
    rw [Nat.mul_succ, after_add]
    exact (ih (by omega)).turn (by omega)

/-- The loop is left after fifteen turns, when the pointer is at the end of the table. -/
theorem out (h : Reached base 0 0 0x06 m) :
    Reached base 15 16 0x13 (m.after 200) ∧ (m.after 200).registers.acc = 0x90 ∧
      (m.after 200).registers.flag = true := by
  obtain ⟨fork, acc, flag⟩ := (h.loop (j := 15) (Nat.le_refl 15)).advance (by decide)
  obtain ⟨done, acc', flag'⟩ := fork.exit flag
  have cut : m.after 200 = ((m.after (13 * 15)).after 4).next := by
    rw [← after_succ', ← after_add]
  rw [cut]
  exact ⟨done, acc'.trans acc, flag'⟩

/-- At the last word of the program the machine executes the halt. -/
theorem executes_halt (h : Reached base j p 0x13 m) : m.Executes .halt :=
  h.here.executes rfl rfl

end Reached

/-! ## The whole program -/

/-- What the program leaves: the table, the last two terms, the pointer behind the table, and every
other cell as in the memory it was placed in. -/
structure Finished (base : Memory) (m : Machine) : Prop where
  phase : m.phase = .halted
  acc : m.registers.acc = 0x90
  flag : m.registers.flag = true
  pc : m.registers.pc = ⟨haltAddress⟩
  filled : m.memory.range tableBase.toNat (tableBase.toNat + table.length) = some table
  lag : m.memory.word lagCell.toNat = 987
  lead : m.memory.word leadCell.toNat = 1597
  pointer : m.memory.word pointerCell.toNat = 0x90
  frame : ∀ c < memoryWords, c < tableBase.toNat ∨ tableBase.toNat + table.length ≤ c →
    c ∉ [lagCell.toNat, leadCell.toNat, pointerCell.toNat] → m.memory.word c = base.word c

/-- The table is filled when its last cell is. -/
theorem Reached.filled (h : Reached base 15 p c m) : m.memory.words 0x80 0x90 = table := by
  have terms : m.memory.words 0x80 0x90 = (List.range' 0x80 16).map fun c => term (c - 0x7E) := by
    refine List.map_congr_left fun c hc => ?_
    obtain ⟨first, last⟩ := List.mem_range'_1.1 hc
    rw [h.memory c (by unfold memoryWords; omega), cells]
    grind
  rw [terms]
  decide

/-- The step that halts turns the loop invariant into what the program leaves. -/
theorem Reached.finished (h : Reached base 15 16 0x13 m) (acc : m.registers.acc = 0x90)
    (flag : m.registers.flag = true) : Finished base m.next := by
  have pc : m.registers.pc.value = haltAddress := UInt16.toNat_inj.1 h.here.pc
  rw [next_of_halt h.here.live h.executes_halt]
  refine ⟨rfl, acc, flag, congrArg Address.mk pc, ?_, h.memory 0x90 (by decide),
    h.memory 0x91 (by decide), h.memory 0x9F (by decide), fun c hc outside others => ?_⟩
  · rw [Memory.range_of_le (by decide) (by decide)]
    exact congrArg some h.filled
  · have numbers : tableBase.toNat = 0x80 ∧ table.length = 16 ∧ lagCell.toNat = 0x90 ∧
        leadCell.toNat = 0x91 ∧ pointerCell.toNat = 0x9F := by decide
    rw [h.memory c hc]
    grind [cells]

/-- The program from its first instruction to its halt. -/
theorem stopsAfter (here : m.At program 0 0x00) :
    m.StopsAfter 206 ∧ (m.after 206).Executes .halt ∧ Finished m.memory (m.after 207) := by
  obtain ⟨done, acc, flag⟩ := (reached_prologue here).out
  rw [← after_add] at done acc flag
  have finished := done.finished acc flag
  rw [← after_succ'] at finished
  refine ⟨⟨done.here.live, ?_⟩, done.executes_halt, finished⟩
  rw [finished.phase]
  rfl

/-- The program is among the cells that it leaves as they were. -/
theorem Finished.image_kept (h : Finished (base.overlay image 0) m) :
    m.memory.range 0 image.length = some image := by
  have kept : m.memory.words 0 image.length = (base.overlay image 0).words 0 image.length := by
    refine Memory.words_congr fun c _ hc => ?_
    have below : c < tableBase.toNat := Nat.lt_trans hc (by decide)
    have others : ∀ d ∈ [lagCell.toNat, leadCell.toNat, pointerCell.toNat],
        tableBase.toNat ≤ d := by decide
    exact h.frame c (Nat.lt_trans hc (by decide)) (.inl below) fun among =>
      Nat.not_le.2 below (others c among)
  have placed : (base.overlay image 0).words 0 (0 + image.length) = image :=
    Memory.words_overlay (by decide)
  rw [Nat.zero_add] at placed
  rw [Memory.range_of_le (Nat.zero_le _) (by decide), kept, placed]

/-- **The built-in program fills its table**, whatever the registers, the memory and the statistics
of the machine it is placed in. It halts in its step 207 and leaves what `Finished` says, itself
included; a smaller budget is spent. -/
theorem fills_table (live : m.phase.isTerminal = false) :
    ∃ placed, m.load image ⟨0⟩ = .ok placed ∧
      (∀ n, 207 ≤ n →
        ((placed.setPc ⟨0⟩).runUntilHalt n).1 = .ok 207 ∧
        Finished placed.memory ((placed.setPc ⟨0⟩).runUntilHalt n).2 ∧
        ((placed.setPc ⟨0⟩).runUntilHalt n).2.memory.range 0 image.length = some image) ∧
      ∀ n < 207, ((placed.setPc ⟨0⟩).runUntilHalt n).1 = .error (.budgetSpent (.ofNat n)) := by
  refine ⟨{ m with memory := m.memory.overlay image 0 }, load_of_fits ⟨by decide, by decide⟩, ?_⟩
  generalize hs : setPc _ _ = start
  have placed : start.memory = m.memory.overlay image 0 := by rw [← hs]; rfl
  have here : start.At program 0 0x00 := by
    rw [← hs]
    exact at_placed (o := ⟨0⟩) live (by decide) rfl (by rw [← image_eq]; rfl)
  obtain ⟨stops, halt, finished⟩ := stopsAfter here
  rw [placed] at finished
  refine ⟨fun n hn => ?_, fun n hn => ?_⟩
  · have answer := stops.runUntilHalt_of_halt hn halt
    rw [show 206 + 1 = 207 from rfl] at answer
    rw [answer]
    dsimp only
    exact ⟨rfl, finished, finished.image_kept⟩
  · rw [stops.runUntilHalt_of_le (Nat.le_of_lt_succ hn)]

/-- On a running machine with every bit of memory and of the accumulator set. -/
theorem fills_table_ones :
    let m : Machine :=
      { registers := { acc := 0xFFFF, flag := true }, memory := ⟨.replicate _ 0xFFFF⟩,
        phase := .running }
    ∃ placed, m.load image ⟨0⟩ = .ok placed ∧
      ((placed.setPc ⟨0⟩).runUntilHalt 1000).1 = .ok 207 ∧
      ((placed.setPc ⟨0⟩).runUntilHalt 1000).2.memory.word leadCell.toNat = 1597 ∧
      ((placed.setPc ⟨0⟩).runUntilHalt 206).1 = .error (.budgetSpent 206) := by
  intro m
  obtain ⟨placed, loads, runs, spent⟩ := fills_table (m := m) rfl
  obtain ⟨answer, finished, -⟩ := runs 1000 (by decide)
  exact ⟨placed, loads, answer, finished.lead, spent 206 (by decide)⟩

end Accumulator.Image.Fibonacci
