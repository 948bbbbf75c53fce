import Mathlib.Data.List.GetD
import Accumulator.Proofs.Encoding
import Accumulator.Proofs.Memory
import Accumulator.Simulator

/-!
# Placing an image

Whether an image is placed is decided by its origin and its length alone: the origin must name a
cell and the words must end inside memory (`Memory.Fits`). A placed image is found at its origin
and the rest of memory is as it was (`Memory.word_overlay`); an encoded program placed so decodes to
its instructions (`Memory.decode_word_overlay`). `Simulator.load_of_fits` and
`Simulator.load_of_not_fits` are the two answers of a simulator with the whole machine that each of
them leaves; of what the machine was before, nothing but the trace switch appears in them.
-/

namespace Accumulator

namespace Memory

variable {m m' : Memory} {image : List UInt16} {origin : Address}

/-- An image of so many words fits in memory behind the origin, which names a cell. -/
def Fits (origin : Address) (length : Nat) : Prop :=
  origin.value.toNat < memoryWords ∧ origin.value.toNat + length ≤ memoryWords

instance (origin : Address) (length : Nat) : Decidable (Fits origin length) :=
  inferInstanceAs (Decidable (_ ∧ _))

/-- A cell behind the placement of an image: a word of the image, or what it held before. -/
theorem word_overlay (m : Memory) (image : List UInt16) (start : Nat) {c : Nat}
    (h : c < memoryWords) :
    (m.overlay image start).word c =
      if start ≤ c then image.getD (c - start) (m.word c) else m.word c := by
  have here : m.word c = m.cells[c] := by rw [word, Vector.getElem?_eq_getElem h, Option.getD_some]
  rw [here, word, Vector.getElem?_eq_getElem h, Option.getD_some]
  exact Vector.getElem_ofFn h

/-- A word of a placed image. -/
theorem word_overlay_add {start i : Nat} (fits : start + image.length ≤ memoryWords)
    (hi : i < image.length) : (m.overlay image start).word (start + i) = image[i] := by
  rw [word_overlay _ _ _ (by omega), if_pos (Nat.le_add_right _ _), Nat.add_sub_cancel_left,
    List.getD_eq_getElem _ _ hi]

/-- A cell that a placed image does not cover. -/
theorem word_overlay_of_outside {start c : Nat} (inside : c < memoryWords)
    (outside : c < start ∨ start + image.length ≤ c) :
    (m.overlay image start).word c = m.word c := by
  rw [word_overlay _ _ _ inside]
  split
  · exact List.getD_eq_default _ _ (by omega)
  · rfl

/-- A placed image is read back from its origin. -/
theorem words_overlay {start : Nat} (h : start + image.length ≤ memoryWords) :
    (m.overlay image start).words start (start + image.length) = image := by
  rw [words, Nat.add_sub_cancel_left]
  apply List.ext_getElem
  · rw [List.length_map, List.length_range']
  · intro i hi hi'
    rw [List.getElem_map, List.getElem_range', Nat.one_mul, word_overlay_add h hi']

/-- An encoded program in a placed image decodes to its instructions. -/
theorem decode_word_overlay {p : List Instruction} {start i : Nat}
    (fits : start + p.length ≤ memoryWords) (hi : i < p.length) :
    Instruction.decode? ((m.overlay (p.map Instruction.encode) start).word (start + i)) =
      some p[i] := by
  rw [← List.length_map (f := Instruction.encode)] at fits hi
  rw [word_overlay_add fits hi, List.getElem_map, Instruction.decode_encode]

/-- A memory of zeros holds zeros, behind its end as well. -/
theorem word_zeros (c : Nat) : zeros.word c = 0 := by
  by_cases h : c < memoryWords
  · rw [word, zeros, Vector.getElem?_replicate, if_pos h]
    rfl
  · exact word_of_le (Nat.not_lt.1 h)

/-- An image that fits is laid over memory from its origin on. -/
theorem load_of_fits (h : Fits origin image.length) :
    m.load image origin = .ok (m.overlay image origin.value.toNat) := by
  simp only [load, Address.cell?, dif_pos h.1, if_pos h.2]

theorem load_of_not_fits (h : ¬ Fits origin image.length) :
    m.load image origin = .error (.imageTooLong origin image.length) := by
  by_cases inside : origin.value.toNat < memoryWords
  · have outside : ¬ origin.value.toNat + image.length ≤ memoryWords := fun fits => h ⟨inside, fits⟩
    simp only [load, Address.cell?, dif_pos inside, if_neg outside]
  · simp only [load, Address.cell?, dif_neg inside]

/-- What a load succeeds with: `load_of_fits`, and nothing else. -/
theorem load_eq_ok_iff : m.load image origin = .ok m' ↔
    Fits origin image.length ∧ m' = m.overlay image origin.value.toNat := by
  by_cases h : Fits origin image.length
  · simp [load_of_fits h, h, eq_comm]
  · simp [load_of_not_fits h, h]

/-- What a load fails with: `load_of_not_fits`, and nothing else. -/
theorem load_eq_error_iff {e : Failure} : m.load image origin = .error e ↔
    ¬ Fits origin image.length ∧ e = .imageTooLong origin image.length := by
  by_cases h : Fits origin image.length
  · simp [load_of_fits h, h]
  · simp [load_of_not_fits h, h, eq_comm]

end Memory

/-- A load changes memory and nothing else. -/
theorem Machine.load_of_fits {m : Machine} {image : List UInt16} {origin : Address}
    (h : Memory.Fits origin image.length) :
    m.load image origin =
      .ok { m with memory := m.memory.overlay image origin.value.toNat } := by
  simp only [load, Memory.load_of_fits h]
  rfl

/-- Settings are accepted just in case their origin names a cell. -/
theorem Config.validate_eq_ok_iff {c : Config} :
    c.validate = .ok () ↔ c.origin.value.toNat < memoryWords := by
  by_cases h : memoryWords ≤ c.origin.value.toNat
  · rw [validate, if_pos h]
    exact iff_of_false nofun (Nat.not_lt.2 h)
  · rw [validate, if_neg h]
    exact iff_of_true rfl (Nat.not_le.1 h)

namespace Simulator

variable {s : Simulator} {image : List UInt16}

/-- The machine that a loaded image starts on. -/
def loaded (image : List UInt16) (origin : Address) (tracing : Bool) : Machine where
  registers := { pc := origin }
  memory := Memory.zeros.overlay image origin.value.toNat
  tracing := tracing

theorem load_of_fits (h : Memory.Fits s.origin image.length) :
    s.load image = (.ok (), { s with machine := loaded image s.origin s.machine.tracing }) := by
  rw [load, Machine.load_of_fits (m := s.machine.reset) h]
  rfl

theorem load_of_not_fits (h : ¬ Memory.Fits s.origin image.length) :
    s.load image =
      (.error (.imageTooLong s.origin image.length), { s with machine := s.machine.reset }) := by
  simp only [load, Machine.load, Memory.load_of_not_fits h]
  rfl

/-- A load succeeds just in case the image fits behind the origin. -/
theorem load_eq_ok_iff : (s.load image).1 = .ok () ↔ Memory.Fits s.origin image.length := by
  by_cases h : Memory.Fits s.origin image.length
  · simp only [load_of_fits h, h]
  · simp only [load_of_not_fits h, h, reduceCtorEq]

/-- Memory behind a load: the image at its origin, and zeros. -/
theorem word_loaded (image : List UInt16) (origin : Address) (tracing : Bool) {c : Nat}
    (h : c < memoryWords) :
    (loaded image origin tracing).memory.word c =
      if origin.value.toNat ≤ c then image.getD (c - origin.value.toNat) 0 else 0 := by
  rw [loaded, Memory.word_overlay _ _ _ h, Memory.word_zeros]

end Simulator
end Accumulator
