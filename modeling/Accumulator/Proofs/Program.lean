import Accumulator.Proofs.Encoding
import Accumulator.Proofs.Listing
import Accumulator.Proofs.Placement

/-!
# From a listing to the instructions in memory

Four parts that know nothing of each other handle a program on its way into a machine: the encoder,
the text that lists its words, the placement of the image and the decoder. `listing_loads` is what
they come to together: whatever way the words are spelled and laid out, the instructions of the
program stand in memory behind the origin, and nothing else does.
-/

namespace Accumulator

variable {p : List Instruction} {s : Simulator}

/-- An encoded program in a placed image decodes to its instructions. -/
theorem decode_word_loaded {origin : Address} {tracing : Bool} {i : Nat}
    (fits : origin.value.toNat + p.length ≤ memoryWords) (hi : i < p.length) :
    Instruction.decode? ((Simulator.loaded (p.map Instruction.encode) origin tracing).memory.word
      (origin.value.toNat + i)) = some p[i] :=
  Memory.decode_word_overlay fits hi

/-- Outside a placed image memory is zero. -/
theorem word_loaded_outside {image : List UInt16} {origin : Address} {tracing : Bool} {c : Nat}
    (hc : c < memoryWords)
    (outside : c < origin.value.toNat ∨ origin.value.toNat + image.length ≤ c) :
    (Simulator.loaded image origin tracing).memory.word c = 0 := by
  rw [Simulator.loaded, Memory.word_overlay_of_outside hc outside, Memory.word_zeros]

/-- **A listed program stands in memory.** For any program that fits behind the origin, and any
listing of its encoded words, the listing is parsed into these words, they are loaded with the
program counter at the origin, and the cells behind the origin decode to the instructions of the
program one by one; all other cells are zero. -/
theorem listing_loads (p : List Instruction) (text : String) (s : Simulator)
    (inside : s.origin.value.toNat < memoryWords)
    (fits : s.origin.value.toNat + p.length ≤ memoryWords)
    (listing : Image.Listing (p.map Instruction.encode) text) :
    Image.parse text = .ok (p.map Instruction.encode) ∧
    (s.load (p.map Instruction.encode)).1 = .ok () ∧
    (s.load (p.map Instruction.encode)).2.machine.registers.pc = s.origin ∧
    (∀ i (hi : i < p.length), Instruction.decode?
      ((s.load (p.map Instruction.encode)).2.machine.memory.word (s.origin.value.toNat + i)) =
        some p[i]) ∧
    ∀ c < memoryWords, c < s.origin.value.toNat ∨ s.origin.value.toNat + p.length ≤ c →
      (s.load (p.map Instruction.encode)).2.machine.memory.word c = 0 := by
  have room : Memory.Fits s.origin (p.map Instruction.encode).length := by
    rw [List.length_map]
    exact ⟨inside, fits⟩
  rw [Simulator.load_of_fits room]
  refine ⟨listing.parse_eq, rfl, rfl, fun i hi => decode_word_loaded fits hi, ?_⟩
  intro c hc outside
  rw [← List.length_map (f := Instruction.encode)] at outside
  exact word_loaded_outside hc outside

/-- Three instructions at the end of memory, listed in three ways of spelling a word. -/
theorem listing_loads_atEnd :
    let p : List Instruction := [.load (.immediate 5), .noop 0xFF, .halt]
    let s := Simulator.new { origin := ⟨253⟩ }
    253 + p.length ≤ memoryWords ∧
    Image.Listing (p.map Instruction.encode) "0x1005;a\n, f2Ff\r\n0 #0" ∧
    Image.parse "0x1005;a\n, f2Ff\r\n0 #0" = .ok [0x1005, 0xF2FF, 0] ∧
    Instruction.decode? ((s.load [0x1005, 0xF2FF, 0]).2.machine.memory.word 254) =
      some (.noop 0xFF) := by
  intro p s
  have fits : 253 + p.length ≤ memoryWords := by decide
  have listing : Image.Listing (p.map Instruction.encode) "0x1005;a\n, f2Ff\r\n0 #0" := by
    refine ⟨[['0', 'x', '1', '0', '0', '5'], ['f', '2', 'F', 'f'], ['0']], ?_, ?_⟩
    · refine .cons ?_ (.cons ?_ (.cons ?_ .nil))
      · exact ⟨['0', 'x'], by decide, 4, by decide, ['1', '0', '0', '5'], by decide, rfl⟩
      · exact ⟨[], by decide, 4, by decide, ['f', '2', 'F', 'f'], by decide, rfl⟩
      · exact ⟨[], by decide, 1, by decide, ['0'], by decide, rfl⟩
    · have comment : Image.Breaks
          [';', 'a', '\n', ',', ' ', 'f', '2', 'F', 'f', '\r', '\n', '0', ' ', '#', '0'] := by
        rintro _ ⟨⟩; rfl
      have feed : Image.Breaks ['\r', '\n', '0', ' ', '#', '0'] := by rintro _ ⟨⟩; rfl
      have blank : Image.Breaks [' ', '#', '0'] := by rintro _ ⟨⟩; rfl
      refine @Image.Layout.token ['0', 'x', '1', '0', '0', '5'] _ _ (by decide)
        (List.all_eq_true.1 rfl) comment ?_
      refine @Image.Layout.comment ';' ['a'] _ _ rfl (by decide) ?_
      refine .separator rfl (.separator rfl ?_)
      refine @Image.Layout.token ['f', '2', 'F', 'f'] _ _ (by decide)
        (List.all_eq_true.1 rfl) feed ?_
      refine .separator rfl (.separator rfl ?_)
      refine @Image.Layout.token ['0'] _ _ (by decide) (List.all_eq_true.1 rfl) blank ?_
      exact .separator rfl (.lastComment rfl (by decide))
  obtain ⟨parsed, -, -, decoded, -⟩ := listing_loads p _ s (by decide) fits listing
  exact ⟨fits, listing, parsed, decoded 1 (by decide)⟩

end Accumulator
