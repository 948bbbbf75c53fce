import Accumulator.Memory

/-!
# Memory as a function of cell numbers

Reads and writes take an address and may refuse it. Both are total functions of the cell number
behind one comparison with the size of memory: `Memory.word` is the word of a cell and
`Memory.put` the memory with one cell replaced, and `read_of_lt`, `read_of_le`, `write_of_lt` and
`write_of_le` say which of the two answers an access gives. An operand byte is never refused. A
range of cells is the list of their words (`range_of_le`), or refused as a whole (`range_of_lt`).
-/

namespace Accumulator.Memory

/-- The word of a cell by number, zero where there is no cell. -/
def word (m : Memory) (cell : Nat) : UInt16 :=
  m.cells[cell]?.getD 0

/-- The memory with the word of one cell replaced. -/
def put (m : Memory) (cell : Nat) (w : UInt16) : Memory :=
  ⟨m.cells.setIfInBounds cell w⟩

variable {m m' : Memory} {a : Address} {k : Access} {w : UInt16}

/-- Behind the last cell every word is zero. -/
theorem word_of_le {c : Nat} (h : memoryWords ≤ c) : m.word c = 0 := by
  rw [word, Vector.getElem?_eq_none h]
  rfl

/-! ## Accesses -/

/-- A read inside memory gives the word of the cell. -/
theorem read_of_lt (h : a.value.toNat < memoryWords) : m.read a k = .ok (m.word a.value.toNat) := by
  simp only [read, Address.cell?, dif_pos h, word, Vector.getElem?_eq_getElem h, Option.getD_some]
  rfl

/-- A read outside memory is refused with the address and the access. -/
theorem read_of_le (h : memoryWords ≤ a.value.toNat) : m.read a k = .error (.outOfBounds a k) := by
  simp only [read, Address.cell?, dif_neg (Nat.not_lt.2 h)]

/-- To replace the word of a cell is to set it in the vector of cells. -/
theorem put_of_lt {c : Nat} (h : c < memoryWords) : m.put c w = ⟨m.cells.set c w⟩ := by
  rw [put]
  congr 1
  ext d hd : 1
  simp only [Vector.getElem_set, Vector.getElem_setIfInBounds]

theorem write_of_lt (h : a.value.toNat < memoryWords) :
    m.write a w = .ok (m.put a.value.toNat w) := by
  simp only [write, Address.cell?, dif_pos h, put_of_lt h]

theorem write_of_le (h : memoryWords ≤ a.value.toNat) :
    m.write a w = .error (.outOfBounds a .write) := by
  simp only [write, Address.cell?, dif_neg (Nat.not_lt.2 h)]

/-- The address of an operand byte is the byte. -/
theorem toNat_ofByte (b : UInt8) : (Address.ofByte b).value.toNat = b.toNat :=
  UInt8.toNat_toUInt16 b

/-- An operand byte is below the size of memory. -/
theorem ofByte_lt (b : UInt8) : (Address.ofByte b).value.toNat < memoryWords := by
  rw [toNat_ofByte]
  exact b.toNat_lt

/-- Behind a cell comes the next number: an address in memory does not wrap around. -/
theorem toNat_next (h : a.value.toNat < memoryWords) : a.next.value.toNat = a.value.toNat + 1 := by
  have lt : a.value.toNat < 256 := h
  simp only [Address.next, UInt16.toNat_add, UInt16.reduceToNat]
  omega

/-- Every address that is a byte names a cell. -/
@[simp] theorem read_ofByte (b : UInt8) : m.read (.ofByte b) k = .ok (m.word b.toNat) := by
  rw [read_of_lt (ofByte_lt b), toNat_ofByte]

/-! ## Words after a write -/

/-- A write to a cell of memory changes that cell and no other. -/
theorem word_put {c : Nat} (h : c < memoryWords) (d : Nat) :
    (m.put c w).word d = if d = c then w else m.word d := by
  simp only [word, put, Vector.getElem?_setIfInBounds]
  by_cases hd : d = c
  · subst hd
    simp [h]
  · simp [hd, Ne.symm hd]

/-- A memory is determined by the words of its cells. -/
theorem ext_word (h : ∀ c, c < memoryWords → m.word c = m'.word c) : m = m' := by
  obtain ⟨cells⟩ := m
  obtain ⟨cells'⟩ := m'
  congr
  ext c hc : 1
  simpa [word, hc] using h c hc

/-- A memory is determined by the list of its words, which is compared faster than its vector. -/
theorem ext_toList (h : m.toList = m'.toList) : m = m' := by
  obtain ⟨cells⟩ := m
  obtain ⟨cells'⟩ := m'
  exact congrArg mk (Vector.toList_inj.1 h)

/-! ## Ranges -/

/-- The words of the cells from `start` up to but not including `stop`. -/
def words (m : Memory) (start stop : Nat) : List UInt16 :=
  (List.range' start (stop - start)).map m.word

variable {start stop : Nat}

/-- A segment depends on the words of its cells alone. -/
theorem words_congr (h : ∀ c, start ≤ c → c < stop → m.word c = m'.word c) :
    m.words start stop = m'.words start stop := by
  refine List.map_congr_left fun c hc => ?_
  obtain ⟨first, last⟩ := List.mem_range'_1.1 hc
  exact h c first (by omega)

/-- A segment with its bounds in order and inside memory is given as its words. -/
theorem range_of_le (ordered : start ≤ stop) (inside : stop ≤ memoryWords) :
    m.range start stop = some (m.words start stop) := by
  have length : m.toList.length = memoryWords := Vector.length_toList
  rw [range, if_pos ⟨ordered, inside⟩, words]
  congr 1
  apply List.ext_getElem
  · rw [List.length_take, List.length_drop, List.length_map, List.length_range', length]
    omega
  · intro i hi hi'
    have cell : start + i < memoryWords := by
      rw [List.length_map, List.length_range'] at hi'
      omega
    rw [List.getElem_take, List.getElem_drop, List.getElem_map, List.getElem_range', Nat.one_mul,
      word, Vector.getElem?_eq_getElem cell]
    rfl

theorem range_of_lt (outside : memoryWords < stop) : m.range start stop = none :=
  if_neg fun h => Nat.not_lt.2 h.2 outside

end Accumulator.Memory
