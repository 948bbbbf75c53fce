import Accumulator.Command.Session
import Accumulator.Proofs.HexText
import Accumulator.Proofs.Lines
import Accumulator.Proofs.Listing

/-!
# A dump is an image with labels

A dump shows eight words a row behind the address of the first one. `IsRow` says what a row looks
like without saying how it is printed: its numbers are told by the digits that they are written in
(`Hex.Writes`). Behind the labels stand blanks and the words in four digits each, which is one of
the ways to lay out an image; so a dump without its labels is read back as the words that were
dumped (`dump_law`), whatever their number.
-/

namespace Accumulator

namespace Image

/-- The capital digits of a word spell it. -/
theorem spells_upper (w : UInt16) : Spells w (Hex.upper 4 w.toNat).toList := by
  have listed : hexDigits.all (fun c => c.toUpper.toLower = c) = true := by decide
  have lower : ∀ c ∈ hexDigits, c.toUpper.toLower = c := by
    simpa only [List.all_eq_true, decide_eq_true_eq] using listed
  refine ⟨[], by decide, 4, le_rfl, (Hex.upper 4 w.toNat).toList, ?_, (List.nil_append _).symm⟩
  rw [Hex.upper, String.toList_ofList, List.map_map]
  exact (List.map_congr_left fun c hc => lower c (Hex.mem_hexDigits_of_mem_digits hc)).trans
    (List.map_id _)

end Image

namespace Command

/-! ## Rows -/

/-- The row shows the words, the first of which is at the address: the address in at least two
capital digits between a dollar sign and a colon, and then each word in four behind a blank. -/
def IsRow (address : Nat) (words : List UInt16) (row : List Char) : Prop :=
  ∃ label shown, row = '$' :: label ++ ':' :: shown.flatMap (' ' :: ·) ∧
    Hex.Writes Hex.capitals 2 address label ∧
    List.Forall₂ (fun w token => Hex.Writes Hex.capitals 4 w.toNat token ∧ token.length = 4)
      words shown

/-- The words of a row by its number. -/
def rowWords (words : List UInt16) (r : Nat) : List UInt16 :=
  (words.drop (8 * r)).take 8

/-- A word as a row shows it. -/
def shownWord (w : UInt16) : List Char :=
  (Hex.upper 4 w.toNat).toList

/-- A row as it is printed, its line feed left out. -/
def rowText (address : Nat) (words : List UInt16) : List Char :=
  '$' :: (Hex.upper 2 address).toList ++ ':' :: words.flatMap fun w => ' ' :: shownWord w

/-- The rows of a dump as they are printed. -/
def rowTexts (start : Nat) (words : List UInt16) : List (List Char) :=
  (List.range ((words.length + 7) / 8)).map fun r => rowText (start + 8 * r) (rowWords words r)

variable {start address r : Nat} {words : List UInt16} {row : List Char}

/-- A row is printed as it should be. -/
theorem isRow_rowText (address : Nat) (words : List UInt16) :
    IsRow address words (rowText address words) := by
  refine ⟨(Hex.upper 2 address).toList, words.map shownWord, ?_,
    Hex.writes_upper (by decide) address, ?_⟩
  · rw [List.flatMap_map]
    rfl
  · refine List.forall₂_map_right_iff.2 (List.forall₂_same.2 fun w _ => ?_)
    exact ⟨Hex.writes_upper (by decide) _, Hex.length_upper_word w⟩

/-- No line feed is in a row. -/
theorem IsRow.feed_not_mem (h : IsRow address words row) : '\n' ∉ row := by
  obtain ⟨label, shown, rfl, address, tokens⟩ := h
  have digit {digits : List Char} (capital : ∀ c ∈ digits, c ∈ Hex.capitals) : '\n' ∉ digits :=
    fun feed => absurd (capital _ feed) (by decide)
  simp only [List.cons_append, List.mem_cons, List.mem_append, List.mem_flatMap, Char.reduceEq,
    false_or, not_or, not_exists, not_and]
  refine ⟨digit address.among, fun token mem => ?_⟩
  obtain ⟨i, hi, rfl⟩ := List.getElem_of_mem mem
  have written := (List.forall₂_iff_get.1 tokens).2 i (tokens.length_eq ▸ hi) hi
  exact digit written.1.among

/-- A dump is printed row by row. -/
theorem isLines_dumpText (start : Nat) (words : List UInt16) :
    IsLines (rowTexts start words) (dumpText start words) where
  text_eq := by
    rw [dumpText, String.toList_join, dumpRows, rowTexts, List.flatMap_map, List.flatMap_map]
    refine List.flatMap_congr fun r _ => ?_
    have shown (ws : List UInt16) :
        (String.join (ws.map fun w => " " ++ Hex.upper 4 w.toNat)).toList =
          ws.flatMap fun w => ' ' :: shownWord w := by
      rw [String.toList_join, List.flatMap_map]
      exact List.flatMap_congr fun w _ => String.toList_append
    have dollar : "$".toList = ['$'] := rfl
    have colon : ":".toList = [':'] := rfl
    have feed : "\n".toList = ['\n'] := rfl
    simp only [String.toList_append, dollar, colon, feed, shown, rowText, rowWords,
      Nat.mul_comm r 8, List.append_assoc, List.cons_append, List.nil_append]
  unbroken := by
    rw [rowTexts, List.forall_mem_map]
    exact fun r _ => (isRow_rowText _ _).feed_not_mem

/-! ## Without the labels -/

/-- A line without its label, which ends with the first colon. -/
def dropLabel (line : List Char) : List Char :=
  if ':' ∈ line then (line.dropWhile (· ≠ ':')).tail else line

/-- A text whose lines have lost their labels. -/
def unlabelled (text : String) : String :=
  String.ofList (['\n'].intercalate ((text.toList.splitOn '\n').map dropLabel))

/-- A label is all that stands in front of the first colon. -/
theorem dropLabel_append {label : List Char} (h : ':' ∉ label) (rest : List Char) :
    dropLabel (label ++ ':' :: rest) = rest := by
  have front : ∀ c ∈ label, decide (c ≠ ':') = true := fun c hc =>
    decide_eq_true fun colon => h (colon ▸ hc)
  rw [dropLabel, if_pos (List.mem_append_right _ List.mem_cons_self),
    List.dropWhile_append_of_pos front, List.dropWhile_cons_of_neg (by simp), List.tail_cons]

/-- Behind its label a row is its words, with a blank in front of each. -/
theorem dropLabel_rowText (address : Nat) (words : List UInt16) :
    dropLabel (rowText address words) = words.flatMap fun w => ' ' :: shownWord w := by
  have capital : ∀ c ∈ (Hex.upper 2 address).toList, c ∈ Hex.capitals :=
    (Hex.writes_upper (by decide) address).among
  refine dropLabel_append (fun colon => ?_) _
  rcases List.mem_cons.1 colon with dollar | digit
  · cases dollar
  · exact absurd (capital _ digit) (by decide)

/-- The lines of a text without labels are its lines without labels. -/
theorem unlabelled_of_isLines {lines : List (List Char)} {text : String} (h : IsLines lines text) :
    unlabelled text = String.ofList ((lines.map dropLabel).flatMap (· ++ ['\n'])) := by
  have bare : IsLines (lines.map dropLabel)
      (String.ofList ((lines.map dropLabel).flatMap (· ++ ['\n']))) := by
    refine ⟨String.toList_ofList, List.forall_mem_map.2 fun line hline feed => ?_⟩
    refine h.unbroken line hline ?_
    rw [dropLabel] at feed
    split at feed
    · exact (List.dropWhile_sublist _).mem (List.mem_of_mem_tail feed)
    · exact feed
  have behind : dropLabel [] = [] := rfl
  rw [unlabelled, h.splitOn_eq, List.map_append, List.map_singleton, behind, bare.intercalate_eq,
    String.ofList_toList]

/-! ## Reading back -/

/-- The words of so many rows are the first words. -/
theorem flatten_rowWords (words : List UInt16) (n : Nat) :
    ((List.range n).map (rowWords words)).flatten = words.take (8 * n) := by
  induction n with
  | zero => rfl
  | succ n ih =>
    rw [List.range_succ, List.map_append, List.flatten_append, ih, Nat.mul_succ, List.take_add,
      List.map_singleton, List.flatten_singleton, rowWords]

/-- A row without its label lays out the words in front of a text. -/
theorem layout_row {tokens : List (List Char)} {text : List Char} (words : List UInt16)
    (h : Image.Layout tokens text) : Image.Layout (words.map shownWord ++ tokens)
      ((words.flatMap fun w => ' ' :: shownWord w) ++ '\n' :: text) := by
  have solid : ∀ c ∈ Hex.capitals, Image.isSolid c = true := List.all_eq_true.1 (by decide)
  induction words with
  | nil => exact .separator rfl h
  | cons w words ih =>
    have written : Hex.Writes Hex.capitals 4 w.toNat (shownWord w) := Hex.writes_upper (by decide) _
    have nonempty : shownWord w ≠ [] := written.ne_nil (by decide)
    rw [List.flatMap_cons, List.append_assoc, List.cons_append, List.map_cons, List.cons_append]
    refine .separator rfl (.token nonempty (fun c hc => solid c (written.among c hc)) ?_ ih)
    -- behind the word comes the blank of the next one or the line feed
    cases words with
    | nil => rintro c ⟨⟩; rfl
    | cons w' words => rintro c ⟨⟩; rfl

/-- Rows without their labels lay out their words in order. -/
theorem layout_rows (rows : List (List UInt16)) : Image.Layout (rows.flatten.map shownWord)
    (rows.flatMap fun words => (words.flatMap fun w => ' ' :: shownWord w) ++ ['\n']) := by
  induction rows with
  | nil => exact .nil
  | cons words rows ih =>
    rw [List.flatten_cons, List.map_append, List.flatMap_cons, List.append_assoc,
      List.singleton_append]
    exact layout_row words ih

/-- A dump without its labels is a listing of its words. -/
theorem listing_unlabelled (start : Nat) (words : List UInt16) :
    Image.Listing words (unlabelled (dumpText start words)) := by
  refine ⟨words.map shownWord, ?_, ?_⟩
  · exact List.forall₂_map_right_iff.2 (List.forall₂_same.2 fun w _ => Image.spells_upper w)
  · have all : ((List.range ((words.length + 7) / 8)).map (rowWords words)).flatten = words := by
      rw [flatten_rowWords, List.take_of_length_le (by omega)]
    have rows := layout_rows ((List.range ((words.length + 7) / 8)).map (rowWords words))
    rw [all, List.flatMap_map] at rows
    rw [unlabelled_of_isLines (isLines_dumpText start words), String.toList_ofList, rowTexts,
      List.map_map, List.flatMap_map]
    simpa only [Function.comp_apply, dropLabel_rowText] using rows

/-- **A dump reads back as an image.** It is as many lines as its words fill rows of eight, the last
one filled in part or in full. The line of each row shows the address of its first word, eight from
row to row, and its words in order. Without the labels up to the colons the text is read as an image
of exactly the words. -/
theorem dump_law (start : Nat) (words : List UInt16) :
    (∃ rows, (∀ lines, IsLines lines (dumpText start words) ↔ lines = rows) ∧
      rows.length = (words.length + 7) / 8 ∧
      ∀ r (h : r < rows.length), IsRow (start + 8 * r) (rowWords words r) rows[r] ∧
        1 ≤ (rowWords words r).length ∧ (rowWords words r).length ≤ 8 ∧
        (r + 1 < rows.length → (rowWords words r).length = 8)) ∧
    Image.parse (unlabelled (dumpText start words)) = .ok words := by
  refine ⟨⟨rowTexts start words, fun _ => (isLines_dumpText start words).iff_eq, ?_, fun r h => ?_⟩,
    (listing_unlabelled start words).parse_eq⟩
  · rw [rowTexts, List.length_map, List.length_range]
  · have length : (rowWords words r).length = min 8 (words.length - 8 * r) := by
      rw [rowWords, List.length_take, List.length_drop]
    have number : (rowTexts start words).length = (words.length + 7) / 8 := by
      rw [rowTexts, List.length_map, List.length_range]
    refine ⟨?_, by omega, by omega, fun _ => by omega⟩
    simp only [rowTexts, List.getElem_map, List.getElem_range]
    exact isRow_rowText _ _

/-- Nine words from `$FC` on: a full row, and one with the last word at `$104`. -/
theorem dump_law_twoRows :
    let words : List UInt16 := [1, 2, 3, 5, 8, 13, 21, 34, 55]
    ∃ rows, IsLines rows (dumpText 0xFC words) ∧ rows.length = 2 ∧
      (∃ row, rows[0]? = some row ∧ IsRow 0xFC [1, 2, 3, 5, 8, 13, 21, 34] row) ∧
      (∃ row, rows[1]? = some row ∧ IsRow 0x104 [55] row) ∧
      Image.parse (unlabelled (dumpText 0xFC words)) = .ok words := by
  intro words
  obtain ⟨⟨rows, lines, length, row⟩, image⟩ := dump_law 0xFC words
  have nine : words.length = 9 := rfl
  have two : rows.length = 2 := by rw [length, nine]
  have first : 0 < rows.length := by omega
  have second : 1 < rows.length := by omega
  obtain ⟨shown, -, -, -⟩ := row 0 first
  obtain ⟨shown', -, -, -⟩ := row 1 second
  exact ⟨rows, (lines rows).2 rfl, two, ⟨_, List.getElem?_eq_getElem first, shown⟩,
    ⟨_, List.getElem?_eq_getElem second, shown'⟩, image⟩

end Command
end Accumulator
