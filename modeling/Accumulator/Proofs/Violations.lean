import Accumulator.Proofs.Placement
import Accumulator.Proofs.Tally

/-!
# Operations with a domain

Memory is read and written by cell number, an image is copied onto a segment of as many cells, and
counters are added and subtracted on 64 bits. Each of these has a domain: the number of a cell,
bounds in order and inside, equal lengths, a difference that is not negative, a sum that fits. The
machine is computed with total functions, which give some value outside the domain too. Here the
operations are strict: outside its domain each ends in a `Violation`, and `cell_eq_ok_iff` and its
neighbours say that it ends in one nowhere else. Memory and counters are then written down with
strict operations alone. An access through an address stays in the domain, whatever the address,
and so does a load, whatever the image; a record does as long as the counters are balanced and the
step counter has room.
-/

namespace Accumulator

/-- An operation outside its domain. -/
inductive Violation where
  /-- A cell number at or past the end of memory. -/
  | cell (number : Nat)
  /-- Bounds of a segment that are not in order, or past the end. -/
  | segment (start stop : Nat)
  /-- A copy between segments of different lengths. -/
  | copy (destination source : Nat)
  /-- A difference below zero. -/
  | difference (a b : UInt64)
  /-- A sum that does not fit in 64 bits. -/
  | sum (a b : UInt64)
deriving DecidableEq, Repr

/-- A computation that ends at its first violation. -/
abbrev Strict := Except Violation

namespace Strict

variable {α : Type} {m m' : Memory} {words image : List UInt16} {start stop n : Nat} {w : UInt16}
  {a b c : UInt64}

/-- The value of an operation in its domain. -/
def within (domain : Prop) [Decidable domain] (v : Violation) (value : α) : Strict α :=
  if domain then .ok value else .error v

/-- An operation succeeds in its domain, with its value. -/
theorem within_eq_ok_iff {domain : Prop} [Decidable domain] {v : Violation} {x y : α} :
    within domain v x = .ok y ↔ domain ∧ y = x := by
  by_cases h : domain
  · simp [within, h, eq_comm]
  · simp [within, h]

/-! ## Cells -/

/-- The word of a cell. -/
def cell (m : Memory) (number : Nat) : Strict UInt16 :=
  if h : number < memoryWords then .ok m.cells[number] else .error (.cell number)

/-- Memory with the word of a cell replaced. -/
def setCell (m : Memory) (number : Nat) (word : UInt16) : Strict Memory :=
  if h : number < memoryWords then .ok ⟨m.cells.set number word⟩ else .error (.cell number)

/-- A cell has a word just in case it is inside memory. -/
theorem cell_eq_ok_iff : cell m n = .ok w ↔ n < memoryWords ∧ w = m.word n := by
  by_cases h : n < memoryWords
  · simp [cell, h, Memory.word, eq_comm]
  · simp [cell, h]

/-- A cell can be set just in case it is inside memory. -/
theorem setCell_eq_ok_iff : setCell m n w = .ok m' ↔ n < memoryWords ∧ m' = m.put n w := by
  by_cases h : n < memoryWords
  · simp [setCell, h, Memory.put_of_lt h, eq_comm]
  · simp [setCell, h]

/-! ## Segments -/

/-- The words of a segment. -/
def segment (words : List UInt16) (start stop : Nat) : Strict (List UInt16) :=
  within (start ≤ stop ∧ stop ≤ words.length) (.segment start stop)
    ((words.drop start).take (stop - start))

/-- Memory with an image copied onto a segment. -/
def copy (m : Memory) (image : List UInt16) (start stop : Nat) : Strict Memory := do
  let destination ← segment m.toList start stop
  within (destination.length = image.length) (.copy destination.length image.length)
    (m.overlay image start)

theorem segment_eq_ok_iff {ws : List UInt16} : segment words start stop = .ok ws ↔
    (start ≤ stop ∧ stop ≤ words.length) ∧ ws = (words.drop start).take (stop - start) :=
  within_eq_ok_iff

/-- A copy needs a segment of memory that is as long as the image. -/
theorem copy_eq_ok_iff : copy m image start stop = .ok m' ↔
    (start ≤ stop ∧ stop ≤ memoryWords) ∧ stop - start = image.length ∧
      m' = m.overlay image start := by
  have length : m.toList.length = memoryWords := Vector.length_toList
  by_cases h : start ≤ stop ∧ stop ≤ memoryWords
  · have destination := segment_eq_ok_iff.2 ⟨length ▸ h, rfl⟩
    have count : ((m.toList.drop start).take (stop - start)).length = stop - start := by
      rw [List.length_take, List.length_drop, length]
      omega
    simp only [copy, destination, bind, Except.bind, count, within_eq_ok_iff, h, and_self, true_and]
  · rw [copy, segment, within, length, if_neg h]
    exact iff_of_false nofun fun ⟨inside, _⟩ => h inside

/-! ## Counters -/

/-- The difference of two counters. -/
def sub (a b : UInt64) : Strict UInt64 :=
  within (b ≤ a) (.difference a b) (a - b)

/-- The sum of two counters. -/
def add (a b : UInt64) : Strict UInt64 :=
  within (a.toNat + b.toNat < 2 ^ 64) (.sum a b) (a + b)

/-- A difference is taken just in case it is not below zero. -/
theorem sub_eq_ok_iff : sub a b = .ok c ↔ b ≤ a ∧ c = a - b :=
  within_eq_ok_iff

/-- A sum is taken just in case it has room. -/
theorem add_eq_ok_iff : add a b = .ok c ↔ a.toNat + b.toNat < 2 ^ 64 ∧ c = a + b :=
  within_eq_ok_iff

/-- A counter that has room moves on by one. -/
theorem add_one (room : a.toNat + 1 < 2 ^ 64) : add a 1 = .ok (a + 1) :=
  add_eq_ok_iff.2 ⟨room, rfl⟩

end Strict

/-! ## Failures that are answers -/

/-- A strict computation that may also fail with an `ε`, which is an answer and no violation. -/
abbrev StrictExcept (ε : Type) := ExceptT ε Strict

namespace StrictExcept

variable {ε α β : Type}

/-- The computation without violations that has the given outcome. -/
def of (outcome : Except ε α) : StrictExcept ε α :=
  .mk (.ok outcome)

@[simp] theorem run_of (x : Except ε α) : (of x).run = .ok x := rfl

theorem of_ok_bind (a : α) (g : α → StrictExcept ε β) : of (.ok a) >>= g = g a := rfl

theorem of_error_bind (e : ε) (g : α → StrictExcept ε β) :
    of (.error e) >>= g = of (.error e) := rfl

theorem pure_eq_of (a : α) : (pure a : StrictExcept ε α) = of (.ok a) := rfl

/-- Computations without violations have none one after the other. -/
theorem of_bind_eq {f : α → Except ε β} {g : α → StrictExcept ε β} (h : ∀ a, g a = of (f a))
    (x : Except ε α) : of x >>= g = of (x >>= f) := by
  cases x with
  | error e => exact of_error_bind e g
  | ok a => exact (of_ok_bind a g).trans (h a)

/-- Two computations without violations, both of them given by their outcomes. -/
theorem of_bind (x : Except ε α) (f : α → Except ε β) :
    (of x >>= fun a => of (f a)) = of (x >>= f) :=
  of_bind_eq (fun _ => rfl) x

end StrictExcept

/-! ## Memory -/

/-- The number of the cell that an address names. -/
def Address.number? (a : Address) : Option Nat :=
  if a.value.toNat < memoryWords then some a.value.toNat else none

theorem Address.number?_of_lt {a : Address} (h : a.value.toNat < memoryWords) :
    a.number? = some a.value.toNat :=
  if_pos h

theorem Address.number?_of_le {a : Address} (h : memoryWords ≤ a.value.toNat) : a.number? = none :=
  if_neg (Nat.not_lt.2 h)

namespace Memory

variable {m : Memory} {a : Address}

/-- A read by cell number, if the address names a cell. -/
def strictRead (m : Memory) (a : Address) (access : Access) : StrictExcept Fault UInt16 :=
  match a.number? with
  | some n => Strict.cell m n
  | none => throw (.outOfBounds a access)

/-- A write by cell number, if the address names a cell. -/
def strictWrite (m : Memory) (a : Address) (word : UInt16) : StrictExcept Fault Memory :=
  match a.number? with
  | some n => Strict.setCell m n word
  | none => throw (.outOfBounds a .write)

/-- The end of an image, if it is a number on 64 bits and not past the end of memory. -/
def stop? (start length : Nat) : Option Nat :=
  (if start + length < 2 ^ 64 then some (start + length) else none).filter (· ≤ memoryWords)

/-- A copy of the image, if its origin names a cell and it has an end in memory. -/
def strictLoad (m : Memory) (image : List UInt16) (origin : Address) :
    StrictExcept Failure Memory :=
  match origin.number? with
  | none => throw (.imageTooLong origin image.length)
  | some start =>
    match stop? start image.length with
    | none => throw (.imageTooLong origin image.length)
    | some stop => Strict.copy m image start stop

/-- A segment of memory, if its bounds are in order and inside. -/
def strictRange (m : Memory) (start stop : Nat) : Strict (Option (List UInt16)) :=
  if start ≤ stop ∧ stop ≤ memoryWords then some <$> Strict.segment m.toList start stop
  else return none

/-- **A read has no violation**, whatever the address. -/
theorem strictRead_eq (m : Memory) (a : Address) (access : Access) :
    m.strictRead a access = .of (m.read a access) := by
  rcases Nat.lt_or_ge a.value.toNat memoryWords with inside | outside
  · have word : Strict.cell m a.value.toNat = .ok (m.word a.value.toNat) :=
      Strict.cell_eq_ok_iff.2 ⟨inside, rfl⟩
    simp only [strictRead, Address.number?_of_lt inside, read_of_lt inside, word]
    rfl
  · simp only [strictRead, Address.number?_of_le outside, read_of_le outside]
    rfl

/-- A write has no violation, whatever the address. -/
theorem strictWrite_eq (m : Memory) (a : Address) (word : UInt16) :
    m.strictWrite a word = .of (m.write a word) := by
  rcases Nat.lt_or_ge a.value.toNat memoryWords with inside | outside
  · have written : Strict.setCell m a.value.toNat word = .ok (m.put a.value.toNat word) :=
      Strict.setCell_eq_ok_iff.2 ⟨inside, rfl⟩
    simp only [strictWrite, Address.number?_of_lt inside, write_of_lt inside, written]
    rfl
  · simp only [strictWrite, Address.number?_of_le outside, write_of_le outside]
    rfl

/-- An image has an end just in case it is in memory; the sum on 64 bits then has room in any case.
-/
theorem stop?_eq_some_iff {start length stop : Nat} :
    stop? start length = some stop ↔ stop = start + length ∧ stop ≤ memoryWords := by
  have small : memoryWords < 2 ^ 64 := by decide
  rw [stop?, Option.filter_eq_some_iff, Option.ite_none_right_eq_some]
  simp only [Option.some.injEq, decide_eq_true_eq]
  omega

/-- **A load has no violation**, whatever the image and its origin. -/
theorem strictLoad_eq (m : Memory) (image : List UInt16) (origin : Address) :
    m.strictLoad image origin = .of (m.load image origin) := by
  rcases Nat.lt_or_ge origin.value.toNat memoryWords with inside | outside
  · simp only [strictLoad, Address.number?_of_lt inside]
    cases stop : stop? origin.value.toNat image.length with
    | none =>
      have long : ¬ Fits origin image.length := fun fits => by
        have some := stop?_eq_some_iff.2 ⟨rfl, fits.2⟩
        rw [stop] at some
        cases some
      rw [load_of_not_fits long]
      rfl
    | some stop =>
      obtain ⟨rfl, fits⟩ := stop?_eq_some_iff.1 stop
      have copied : Strict.copy m image origin.value.toNat (origin.value.toNat + image.length) =
          .ok (m.overlay image origin.value.toNat) :=
        Strict.copy_eq_ok_iff.2 ⟨⟨Nat.le_add_right _ _, fits⟩, Nat.add_sub_cancel_left .., rfl⟩
      rw [load_of_fits ⟨inside, fits⟩]
      simp only [copied]
      rfl
  · have refused : ¬ Fits origin image.length := fun fits => Nat.not_lt.2 outside fits.1
    simp only [strictLoad, Address.number?_of_le outside, load_of_not_fits refused]
    rfl

/-- A range has no violation, whatever its bounds. -/
theorem strictRange_eq (m : Memory) (start stop : Nat) :
    m.strictRange start stop = .ok (m.range start stop) := by
  have length : m.toList.length = memoryWords := Vector.length_toList
  by_cases h : start ≤ stop ∧ stop ≤ memoryWords
  · rw [strictRange, if_pos h, Strict.segment_eq_ok_iff.2 ⟨length ▸ h, rfl⟩, range, if_pos h]
    rfl
  · rw [strictRange, if_neg h, range, if_neg h]
    rfl

end Memory

/-! ## Statistics -/

namespace Statistics

variable {s : Statistics}

/-- The counts after one more instruction. -/
def strictRecord (s : Statistics) (i : Instruction) (taken : Bool) : Strict Statistics := do
  let s := { s with steps := ← Strict.add s.steps 1 }
  match i with
  | .halt => return { s with halts := ← Strict.add s.halts 1 }
  | .load _ => return { s with loads := ← Strict.add s.loads 1 }
  | .store _ => return { s with stores := ← Strict.add s.stores 1 }
  | .add _ | .sub _ => return { s with arithmetic := ← Strict.add s.arithmetic 1 }
  | .cmp _ | .bit _ => return { s with comparisons := ← Strict.add s.comparisons 1 }
  | .bitwise _ _ => return { s with bitwise := ← Strict.add s.bitwise 1 }
  | .zero _ | .inc _ | .dec _ => return { s with updates := ← Strict.add s.updates 1 }
  | .noop _ => return { s with noops := ← Strict.add s.noops 1 }
  | .breq _ | .brne _ =>
    if taken then return { s with branchesTaken := ← Strict.add s.branchesTaken 1 }
    else return { s with branchesNotTaken := ← Strict.add s.branchesNotTaken 1 }
  | .jump _ => return { s with jumps := ← Strict.add s.jumps 1 }

/-- All conditional branches. -/
def strictBranches (s : Statistics) : Strict UInt64 :=
  Strict.add s.branchesTaken s.branchesNotTaken

/-- No class is fuller than all of them together. -/
theorem Balanced.count_le (h : s.Balanced) (c : Class) :
    (s.count c).toNat ≤ s.steps.toNat := by
  rw [h, classes]
  cases c <;> simp only [count] <;> omega

/-- **A record has no violation** if the step counter has room. -/
theorem Balanced.strictRecord_eq (h : s.Balanced) (room : s.steps.toNat + 1 < 2 ^ 64)
    (i : Instruction) (taken : Bool) : s.strictRecord i taken = .ok (s.record i taken) := by
  have fits : (s.count (i.classBy taken)).toNat + 1 < 2 ^ 64 :=
    Nat.lt_of_le_of_lt (Nat.add_le_add_right (h.count_le _) 1) room
  cases i with
  | breq _ | brne _ =>
    cases taken with
    | true | false =>
      simp only [Instruction.classBy, count, Bool.false_eq_true, if_true, if_false] at fits
      simp only [strictRecord, Strict.add_one room, Strict.add_one fits, bind, Except.bind]
      rfl
  | halt | load _ | store _ | add _ | sub _ | cmp _ | jump _ | bitwise _ _ | bit _ | zero _ | inc _
  | dec _ | noop _ =>
    simp only [Instruction.classBy, count] at fits
    simp only [strictRecord, Strict.add_one room, Strict.add_one fits, bind, Except.bind]
    rfl

/-- Without room there is one. -/
example : ({ steps := -1, noops := -1 } : Statistics).strictRecord (.noop 0) false =
    .error (.sum (-1) 1) := by decide +kernel

/-- The two branch counters can always be added up. -/
theorem Balanced.strictBranches_eq (h : s.Balanced) : s.strictBranches = .ok s.branches :=
  Strict.add_eq_ok_iff.2 ⟨h.branches_lt, rfl⟩

end Statistics
end Accumulator
