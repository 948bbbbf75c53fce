import Mathlib.Data.List.Basic

/-!
# Texts printed line by line

A text that is printed line by line has a line feed behind every line, the last one included. If
there is none inside a line, the lines are found again by splitting the text at line feeds, with
nothing behind the last of them (`IsLines.splitOn_eq`). So a text is made of one list of lines at
most (`IsLines.iff_eq`).
-/

namespace Accumulator

/-- The text is the lines in order, each with a line feed behind it and none in it. -/
structure IsLines (lines : List (List Char)) (text : String) : Prop where
  text_eq : text.toList = lines.flatMap (· ++ ['\n'])
  unbroken : ∀ line ∈ lines, '\n' ∉ line

variable {lines lines' : List (List Char)} {text : String}

/-- Splitting at line feeds gives the lines, and nothing behind the last one. -/
theorem IsLines.splitOn_eq (h : IsLines lines text) : text.toList.splitOn '\n' = lines ++ [[]] := by
  obtain ⟨whole, unbroken⟩ := h
  rw [whole]
  clear whole
  induction lines with
  | nil => rfl
  | cons line lines ih =>
    obtain ⟨first, rest⟩ := List.forall_mem_cons.1 unbroken
    rw [List.flatMap_cons, List.append_assoc, List.singleton_append,
      List.splitOn_append_cons_self_of_not_mem first, ih rest, List.cons_append]

/-- The text is put together from its lines and nothing. -/
theorem IsLines.intercalate_eq (h : IsLines lines text) :
    ['\n'].intercalate (lines ++ [[]]) = text.toList := by
  rw [← h.splitOn_eq, List.intercalate_splitOn]

/-- A text is made of its lines and of no others. -/
theorem IsLines.iff_eq (h : IsLines lines text) : IsLines lines' text ↔ lines' = lines :=
  ⟨fun h' => List.append_cancel_right (h'.splitOn_eq.symm.trans h.splitOn_eq), fun eq => eq ▸ h⟩

/-- Lines printed one by one. -/
theorem isLines_join {lines : List String} (unbroken : ∀ line ∈ lines, '\n' ∉ line.toList) :
    IsLines (lines.map String.toList) (String.join (lines.map (· ++ "\n"))) where
  text_eq := by
    rw [String.toList_join, List.flatMap_map, List.flatMap_map]
    simp only [String.toList_append]
    rfl
  unbroken := List.forall_mem_map.2 unbroken

end Accumulator
