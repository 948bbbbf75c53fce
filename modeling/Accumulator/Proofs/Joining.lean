import Accumulator.Proofs.Scan

/-!
# Image texts one behind the other

A line feed between two texts ends the last line of the first one, whatever that line is: an open
comment, a line without a word, a line that ends in a carriage return. So the lines of the whole are
those of the first text and then those of the second, with numbers that go on where the first text
stops (`numberedFrom_append_feed`). Reading the whole is reading the first text and then the second
(`parse_join`): their words come one behind the other, and the first failure is the failure, in the
second text so many lines later as the first text has (`parse_join_law`).
-/

namespace Accumulator

/-- The error of a text behind so many lines of another one. -/
def ImageError.later (lines : Nat) : ImageError → ImageError
  | .invalidWord line token => .invalidWord (line + lines) token
  | .unreadable => .unreadable

namespace Image

variable {text : String} {e : ImageError}

/-! ## Lines and their numbers -/

/-- A text has one line more than line feeds. -/
theorem length_splitOn (text : List Char) :
    (text.splitOn '\n').length = text.count '\n' + 1 := by
  induction text with
  | nil => rfl
  | cons c text ih =>
    rw [List.splitOn_cons_eq_if_modifyHead]
    split
    case isTrue feed => rw [List.length_cons, ih, eq_of_beq feed, List.count_cons_self]
    case isFalse other =>
      have other : c ≠ '\n' := by simpa using other
      rw [List.length_modifyHead, ih, List.count_cons_of_ne other]

/-- A line feed ends a line, so the tokens of two texts with one between them are those of the one
and, on later lines, those of the other. -/
theorem numberedFrom_append_feed (n : Nat) (a b : List Char) :
    numberedFrom n (a ++ '\n' :: b) =
      numberedFrom n a ++ numberedFrom (n + (a.count '\n' + 1)) b := by
  rw [numberedFrom, List.splitOn_append_cons_self, List.zipIdx_append, List.flatMap_append,
    length_splitOn]
  rfl

/-- With later numbers a text has the same tokens, each on a line that is so much later. -/
theorem numberedFrom_add (n lines : Nat) (text : List Char) :
    numberedFrom (n + lines) text = (numberedFrom n text).map fun t => (t.1 + lines, t.2) := by
  rw [numberedFrom, numberedFrom]
  generalize text.splitOn '\n' = all
  induction all generalizing n with
  | nil => rfl
  | cons line all ih =>
    rw [List.zipIdx_cons, List.zipIdx_cons, List.flatMap_cons, List.flatMap_cons, List.map_append,
      List.map_map, Nat.add_right_comm, ih]
    rfl

/-! ## Words and errors -/

/-- Whether a token is a word does not depend on its line; only the error names it. -/
theorem judge_later (lines : Nat) (t : Nat × List Char) :
    judge (t.1 + lines, t.2) = (judge t).mapError (·.later lines) := by
  rw [judge, judge]
  cases word? t.2 <;> rfl

/-- Nor does it depend on the lines whether all tokens are words. -/
theorem mapM_judge_later (lines : Nat) (ts : List (Nat × List Char)) :
    (ts.map fun t => (t.1 + lines, t.2)).mapM judge =
      (ts.mapM judge).mapError (·.later lines) := by
  induction ts with
  | nil => rfl
  | cons t ts ih =>
    have later := judge_later lines t
    rw [List.map_cons]
    cases first : judge t with
    | error e =>
      rw [first] at later
      rw [mapM_cons_of_error later, mapM_cons_of_error first]
      rfl
    | ok w =>
      rw [first] at later
      rw [mapM_cons_of_ok later, mapM_cons_of_ok first, ih]
      cases ts.mapM judge <;> rfl

/-- What is wrong with a text is a token on one of its lines. -/
theorem exists_invalidWord (h : parse text = .error e) :
    ∃ line token, e = .invalidWord line token := by
  rw [parse_eq, mapM_eq_error_iff] at h
  obtain ⟨-, t, -, -, -, judged⟩ := h
  exact ⟨t.1, _, (judge_eq_error_iff.1 judged).2⟩

/-- **Reading two texts with a line feed between them** is reading one behind the other. -/
theorem parse_join (a b : String) : parse (a ++ "\n" ++ b) = do
    let u ← parse a
    let v ← (parse b).mapError (·.later (a.toList.count '\n' + 1))
    return u ++ v := by
  have whole : (a ++ "\n" ++ b).toList = a.toList ++ '\n' :: b.toList := by
    simp [String.toList_append]
  have tokens (text : String) : parse text = (numberedFrom 1 text.toList).mapM judge := rfl
  rw [tokens, tokens a, tokens b, whole, numberedFrom_append_feed, numberedFrom_add,
    List.mapM_append, mapM_judge_later]

/-- **Image texts concatenate.** Let two texts be joined by a line feed. If the first is no image,
the whole fails on the same token of the same line. If both are images, the words of the whole are
those of the first and then those of the second. If the second alone is no image, the whole fails on
the same token, one line later than there, and so many more as the first text has line feeds. -/
theorem parse_join_law (a b : String) :
    (∀ e, parse a = .error e → parse (a ++ "\n" ++ b) = .error e) ∧
    (∀ u v, parse a = .ok u → parse b = .ok v → parse (a ++ "\n" ++ b) = .ok (u ++ v)) ∧
    ∀ u e, parse a = .ok u → parse b = .error e → ∃ line token, e = .invalidWord line token ∧
      parse (a ++ "\n" ++ b) = .error (.invalidWord (line + 1 + a.toList.count '\n') token) := by
  rw [parse_join]
  refine ⟨fun e first => ?_, fun u v first second => ?_, fun u e first second => ?_⟩
  · rw [first]
    rfl
  · rw [first, second]
    rfl
  · obtain ⟨line, token, rfl⟩ := exists_invalidWord second
    refine ⟨line, token, rfl, ?_⟩
    rw [first, second, Nat.add_assoc, Nat.add_comm 1]
    rfl

/-- A text that ends in an open comment and a carriage return, with an image behind it, with a text
that fails on its second line, behind that text, and behind an empty one. -/
theorem parse_join_law_openComment :
    (parse "1\n2 ; open\r" = .ok [1, 2] ∧ parse "3,4" = .ok [3, 4] ∧
      parse ("1\n2 ; open\r" ++ "\n" ++ "3,4") = .ok [1, 2, 3, 4]) ∧
    (parse "\nG" = .error (.invalidWord 2 "G") ∧
      parse ("1\n2 ; open\r" ++ "\n" ++ "\nG") = .error (.invalidWord 4 "G")) ∧
    parse ("\nG" ++ "\n" ++ "1\n2 ; open\r") = .error (.invalidWord 2 "G") ∧
    parse ("" ++ "\n" ++ "1\n2 ; open\r") = .ok [1, 2] := by
  have commented : parse "1\n2 ; open\r" = .ok [1, 2] := rfl
  have image : parse "3,4" = .ok [3, 4] := rfl
  have fails : parse "\nG" = .error (.invalidWord 2 "G") := rfl
  obtain ⟨-, words, -⟩ := parse_join_law "1\n2 ; open\r" "3,4"
  obtain ⟨-, -, later⟩ := parse_join_law "1\n2 ; open\r" "\nG"
  obtain ⟨first, -, -⟩ := parse_join_law "\nG" "1\n2 ; open\r"
  obtain ⟨-, empty, -⟩ := parse_join_law "" "1\n2 ; open\r"
  obtain ⟨line, token, same, error⟩ := later _ _ commented fails
  cases same
  exact ⟨⟨commented, image, words _ _ commented image⟩, ⟨fails, error⟩, first _ fails,
    empty _ _ rfl commented⟩

end Image
end Accumulator
