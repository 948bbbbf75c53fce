import Mathlib.Data.List.Induction
import Accumulator.Proofs.Placement

/-!
# Memory as a checked map

Seen from outside, a memory is a map from the numbers below 256 to words. `Memory.Call` is one
access to it and `Memory.behind` what a sequence of them leaves of a memory of zeros; `latest` reads
off the calls alone which word was put in a cell last. A read that is not refused answers with that
word (`word_behind`), whether it was written on its own or came with an image, and a call that is
refused leaves every word (`checked_map_law`). Which calls are refused does not depend on the words:
a single access is for its address, a load for its origin and its length, a range for its bounds.
-/

namespace Accumulator.Memory

/-- An access to a memory, with its arguments. -/
inductive Call where
  | read (a : Address) (access : Access)
  | write (a : Address) (word : UInt16)
  | load (image : List UInt16) (origin : Address)
  /-- Fill the memory with zeros. -/
  | clear
deriving DecidableEq

namespace Call

/-- The memory behind a call; a write or a load that is refused leaves it as it was. -/
def perform (m : Memory) : Call → Memory
  | .read _ _ => m
  | .write a word =>
    match m.write a word with
    | .ok m' => m'
    | .error _ => m
  | .load image origin =>
    match m.load image origin with
    | .ok m' => m'
    | .error _ => m
  | .clear => zeros

/-- The call is answered with a failure. -/
def Refused (m : Memory) : Call → Prop
  | .read a access => (m.read a access).isOk = false
  | .write a word => (m.write a word).isOk = false
  | .load image origin => (m.load image origin).isOk = false
  | .clear => False

/-- The word that a write, or a load of an image that fits, puts in a cell; a write outside memory
names no cell. -/
def put? (cell : Nat) : Call → Option UInt16
  | .write a word => if a.value.toNat = cell then some word else none
  | .load image origin =>
    if Fits origin image.length ∧ origin.value.toNat ≤ cell then image[cell - origin.value.toNat]?
    else none
  | .read _ _ | .clear => none

end Call

/-- The memory behind a sequence of calls, zeros in front of it. -/
def behind (calls : List Call) : Memory :=
  calls.foldl Call.perform zeros

/-- The calls since the last clear, the latest first. -/
def sinceClear (calls : List Call) : List Call :=
  calls.reverse.takeWhile (· ≠ .clear)

/-- The word that was put in a cell most recently since the last clear, zero if there is none. -/
def latest (calls : List Call) (cell : Nat) : UInt16 :=
  ((sinceClear calls).findSome? (·.put? cell)).getD 0

variable {m : Memory} {a : Address} {k : Access} {w : UInt16} {f : Fault} {c : Call}
  {calls : List Call} {cell : Nat}

/-! ## Refused calls -/

/-- A read is refused outside memory and nowhere else, and its error names the address and the
access. -/
theorem read_eq_error_iff :
    m.read a k = .error f ↔ memoryWords ≤ a.value.toNat ∧ f = .outOfBounds a k := by
  rcases Nat.lt_or_ge a.value.toNat memoryWords with h | h
  · simp [read_of_lt h, Nat.not_le.2 h]
  · simp [read_of_le h, h, eq_comm]

/-- A read inside memory gives the word of the cell. -/
theorem read_eq_ok_iff :
    m.read a k = .ok w ↔ a.value.toNat < memoryWords ∧ w = m.word a.value.toNat := by
  rcases Nat.lt_or_ge a.value.toNat memoryWords with h | h
  · simp [read_of_lt h, h, eq_comm]
  · simp [read_of_le h, Nat.not_lt.2 h]

/-- A write is refused outside memory and nowhere else, and its error names the address. -/
theorem write_eq_error_iff :
    m.write a w = .error f ↔ memoryWords ≤ a.value.toNat ∧ f = .outOfBounds a .write := by
  rcases Nat.lt_or_ge a.value.toNat memoryWords with h | h
  · simp [write_of_lt h, Nat.not_le.2 h]
  · simp [write_of_le h, h, eq_comm]

/-- An image has no room if its origin is no cell, or if its last word would be behind the last
cell. -/
theorem not_fits_iff {origin : Address} {length : Nat} : ¬ Fits origin length ↔
    memoryWords ≤ origin.value.toNat ∨ memoryWords < origin.value.toNat + length := by
  rw [Fits, not_and_or, Nat.not_lt, Nat.not_le]

/-- A refused call changes nothing. -/
theorem Call.perform_of_refused (h : c.Refused m) : c.perform m = m := by
  cases c with
  | read a access => rfl
  | write a word =>
    rw [Refused] at h
    rw [perform]
    cases hw : m.write a word with
    | error f => rfl
    | ok m' => rw [hw] at h; cases h
  | load image origin =>
    rw [Refused] at h
    rw [perform]
    cases hl : m.load image origin with
    | error e => rfl
    | ok m' => rw [hl] at h; cases h
  | clear => exact h.elim

/-! ## The latest word -/

theorem behind_concat (calls : List Call) (c : Call) :
    behind (calls ++ [c]) = c.perform (behind calls) :=
  List.foldl_append

/-- Behind a clear nothing was put. -/
theorem latest_concat_clear (calls : List Call) (cell : Nat) :
    latest (calls ++ [.clear]) cell = 0 := by
  simp [latest, sinceClear]

/-- The latest put of a sequence is that of the last call, if it puts something into the cell. -/
theorem latest_concat (h : c ≠ .clear) (calls : List Call) (cell : Nat) :
    latest (calls ++ [c]) cell = (c.put? cell).getD (latest calls cell) := by
  have since : sinceClear (calls ++ [c]) = c :: sinceClear calls := by
    simp [sinceClear, h]
  rw [latest, since, List.findSome?_cons]
  cases c.put? cell with
  | none => rfl
  | some word => rfl

/-- A call but a clear leaves in a cell what it puts there, or what was there. -/
theorem Call.word_perform (inside : cell < memoryWords) (h : c ≠ .clear) (m : Memory) :
    (c.perform m).word cell = (c.put? cell).getD (m.word cell) := by
  cases c with
  | clear => exact absurd rfl h
  | read a access => rfl
  | write a word =>
    rw [perform, put?]
    rcases Nat.lt_or_ge a.value.toNat memoryWords with ha | ha
    · rw [write_of_lt ha]
      dsimp only
      rw [word_put ha]
      by_cases same : a.value.toNat = cell
      · rw [if_pos same, if_pos same.symm, Option.getD_some]
      · rw [if_neg same, if_neg (Ne.symm same), Option.getD_none]
    · have other : a.value.toNat ≠ cell := by omega
      rw [write_of_le ha, if_neg other]
      rfl
  | load image origin =>
    rw [perform, put?]
    by_cases fits : Fits origin image.length
    · rw [load_of_fits fits]
      dsimp only
      rw [word_overlay _ _ _ inside]
      by_cases behind : origin.value.toNat ≤ cell
      · rw [if_pos behind, if_pos ⟨fits, behind⟩, List.getD_eq_getElem?_getD]
      · rw [if_neg behind, if_neg (fun h => behind h.2), Option.getD_none]
    · rw [load_of_not_fits fits, if_neg (fun h => fits h.1)]
      rfl

/-- **A cell holds the word that was put there most recently.** -/
theorem word_behind (inside : cell < memoryWords) (calls : List Call) :
    (behind calls).word cell = latest calls cell := by
  induction calls using List.reverseRecOn with
  | nil => exact word_zeros cell
  | append_singleton calls c ih =>
    rw [behind_concat]
    by_cases h : c = .clear
    · subst h
      rw [latest_concat_clear]
      exact word_zeros cell
    · rw [Call.word_perform inside h, latest_concat h, ih]

/-! ## Ranges -/

/-- A segment is given just in case its bounds are in order and inside memory. -/
theorem range_eq_some_iff {start stop : Nat} {ws : List UInt16} : m.range start stop = some ws ↔
    start ≤ stop ∧ stop ≤ memoryWords ∧ ws = m.words start stop := by
  by_cases h : start ≤ stop ∧ stop ≤ memoryWords
  · simp [range_of_le h.1 h.2, h, eq_comm]
  · rw [range, if_neg h]
    simp only [reduceCtorEq, false_iff]
    intro answered
    exact h ⟨answered.1, answered.2.1⟩

/-- The words of a segment are the ones that single reads give. -/
theorem read_of_getElem?_words {start stop i : Nat} (inside : stop ≤ memoryWords)
    (h : (m.words start stop)[i]? = some w) : m.read ⟨.ofNat (start + i)⟩ k = .ok w := by
  obtain ⟨hi, rfl⟩ := List.getElem?_eq_some_iff.1 h
  rw [words, List.length_map, List.length_range'] at hi
  have cell : start + i < memoryWords := by omega
  have number : (UInt16.ofNat (start + i)).toNat = start + i :=
    UInt16.toNat_ofNat_of_lt (Nat.lt_trans cell (by decide))
  refine read_eq_ok_iff.2 ⟨by rwa [number], ?_⟩
  simp only [number, words, List.getElem_map, List.getElem_range', Nat.one_mul]

/-- **Memory is a checked map.** Behind any calls on a memory of zeros, a read is refused just in
case its address is outside memory, with the address and the kind of access, and otherwise answered
with the word that was put in the cell most recently since the last clear, by a write or by a load
that was not refused. A write is refused just in case its address is outside memory; a load just in
case its origin is, or its image ends behind the last cell. A call that is refused leaves every
cell. A range of any machine's memory is answered just in case it is ordered and ends inside memory,
and then with the words of its cells. -/
theorem checked_map_law :
    (∀ (calls : List Call) (a : Address) (access : Access),
      (∀ f, (behind calls).read a access = .error f ↔
        memoryWords ≤ a.value.toNat ∧ f = .outOfBounds a access) ∧
      ∀ w, (behind calls).read a access = .ok w ↔
        a.value.toNat < memoryWords ∧ w = latest calls a.value.toNat) ∧
    (∀ (calls : List Call) (a : Address) (w : UInt16) (f : Fault),
      (behind calls).write a w = .error f ↔
        memoryWords ≤ a.value.toNat ∧ f = .outOfBounds a .write) ∧
    (∀ (calls : List Call) (image : List UInt16) (origin : Address) (e : Failure),
      (behind calls).load image origin = .error e ↔
        (memoryWords ≤ origin.value.toNat ∨
          memoryWords < origin.value.toNat + image.length) ∧
        e = .imageTooLong origin image.length) ∧
    (∀ (calls : List Call) (c : Call), c.Refused (behind calls) →
      behind (calls ++ [c]) = behind calls) ∧
    ∀ (x : Machine) (start stop : Nat),
      ((∃ ws, x.memory.range start stop = some ws) ↔ start ≤ stop ∧ stop ≤ memoryWords) ∧
      ∀ ws, x.memory.range start stop = some ws → ws.length = stop - start ∧
        ∀ i w, ws[i]? = some w → x.read ⟨.ofNat (start + i)⟩ = .ok w := by
  refine ⟨fun calls a access => ⟨fun f => read_eq_error_iff, fun w => ?_⟩,
    fun calls a w f => write_eq_error_iff, fun calls image origin e => ?_,
    fun calls c refused => ?_, fun x start stop => ⟨?_, fun ws h => ?_⟩⟩
  · rw [read_eq_ok_iff, and_congr_right_iff]
    intro inside
    rw [word_behind inside]
  · rw [load_eq_error_iff, not_fits_iff]
  · rw [behind_concat, Call.perform_of_refused refused]
  · simp only [range_eq_some_iff, exists_and_left, exists_eq, and_true]
  · obtain ⟨ordered, inside, rfl⟩ := range_eq_some_iff.1 h
    refine ⟨by rw [words, List.length_map, List.length_range'], fun i w hw => ?_⟩
    exact read_of_getElem?_words inside hw

/-- A cleared cell, a cell that was loaded and then written, and a load that is one word too long,
with an empty one at the last cell and one behind it, and the range of the last cell. -/
theorem checked_map_law_overlapping :
    let calls : List Call :=
      [.write ⟨3⟩ 7, .clear, .load [5, 6] ⟨0xFE⟩, .write ⟨0xFF⟩ 9, .load [1, 2, 3] ⟨0xFE⟩]
    ((behind calls).read ⟨0xFE⟩ .read = .ok 5 ∧ (behind calls).read ⟨0xFF⟩ .read = .ok 9 ∧
      (behind calls).read ⟨3⟩ .read = .ok 0 ∧
      (behind calls).read ⟨0x100⟩ .read = .error (.outOfBounds ⟨0x100⟩ .read)) ∧
    (behind calls).write ⟨0x100⟩ 1 = .error (.outOfBounds ⟨0x100⟩ .write) ∧
    (behind calls).load [] ⟨0x100⟩ = .error (.imageTooLong ⟨0x100⟩ 0) ∧
    (∀ e, (behind calls).load [] ⟨0xFF⟩ ≠ .error e) ∧
    (Call.Refused (behind calls) (.load [1, 2, 3] ⟨0xFE⟩) ∧
      behind (calls ++ [.load [1, 2, 3] ⟨0xFE⟩]) = behind calls) ∧
    ∃ w, Machine.new.memory.range 0xFF 0x100 = some [w] ∧ Machine.new.read ⟨0xFF⟩ = .ok w := by
  intro calls
  obtain ⟨reads, writes, loads, refused, ranges⟩ := checked_map_law
  have long : (behind calls).load [1, 2, 3] ⟨0xFE⟩ = .error (.imageTooLong ⟨0xFE⟩ 3) :=
    (loads _ _ _ _).2 ⟨by decide, rfl⟩
  have fails : Call.Refused (behind calls) (.load [1, 2, 3] ⟨0xFE⟩) := by
    rw [Call.Refused, long]
    rfl
  have empty : ∀ e, (behind calls).load [] ⟨0xFF⟩ ≠ .error e := by
    intro e h
    have outside := ((loads calls [] ⟨0xFF⟩ e).1 h).1
    revert outside
    decide
  obtain ⟨range, words⟩ := ranges .new 0xFF 0x100
  obtain ⟨ws, last⟩ := range.2 (by decide)
  obtain ⟨length, word⟩ := words ws last
  obtain ⟨w, rfl⟩ := List.length_eq_one_iff.1 length
  refine ⟨⟨?_, ?_, ?_, ?_⟩, (writes _ _ _ _).2 ⟨by decide, rfl⟩, (loads _ _ _ _).2 ⟨by decide, rfl⟩,
    empty, ⟨fails, refused calls _ fails⟩, w, last, word 0 w rfl⟩
  · exact ((reads calls ⟨0xFE⟩ .read).2 5).2 ⟨by decide, by decide⟩
  · exact ((reads calls ⟨0xFF⟩ .read).2 9).2 ⟨by decide, by decide⟩
  · exact ((reads calls ⟨3⟩ .read).2 0).2 ⟨by decide, by decide⟩
  · exact ((reads calls ⟨0x100⟩ .read).1 _).2 ⟨by decide, rfl⟩

end Accumulator.Memory
