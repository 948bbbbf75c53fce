import Accumulator.Proofs.Memory
import Accumulator.Proofs.NumberSyntax

/-!
# Ranges on the command line

A range is cut at its first two dots, but it may have been meant to be cut elsewhere: a text can
have more dots than two. Since no number has a dot in it, only the first two can stand between two
numbers (`cutAtDots_append`), so nothing is lost by trying no other cut, and a text is a range in
one way at most (`range_law`).
-/

namespace Accumulator.Command

variable {cs front back front' back' : List Char} {start stop : UInt16} {r : WordRange}

/-! ## The cut -/

/-- What stands between the two numbers of a range. -/
def dots : List Char :=
  ['.', '.']

/-- Two dots behind a text without a dot are the first ones. -/
theorem cutAtDots_append (h : '.' ∉ front) (back : List Char) :
    cutAtDots (front ++ dots ++ back) = some (front, back) := by
  induction front with
  | nil => rfl
  | cons c front ih =>
    obtain ⟨hc, hfront⟩ := List.ne_and_not_mem_of_not_mem_cons h
    have passed : cutAtDots (c :: (front ++ dots ++ back)) =
        (cutAtDots (front ++ dots ++ back)).map fun cut => (c :: cut.1, cut.2) := by
      rw [cutAtDots]
      rintro rest rfl
      exact absurd rfl hc
    rw [List.cons_append, List.cons_append, passed, ih hfront]
    rfl

/-- A cut text is its two halves with the dots between them. -/
theorem eq_of_cutAtDots (h : cutAtDots cs = some (front, back)) : cs = front ++ dots ++ back := by
  induction cs generalizing front with
  | nil => cases h
  | cons c cs ih =>
    unfold cutAtDots at h
    split at h
    case h_1 nothing => cases nothing
    case h_2 whole =>
      cases h
      exact whole
    case h_3 whole =>
      cases whole
      obtain ⟨⟨front, back⟩, cut, same⟩ := Option.map_eq_some_iff.1 h
      cases same
      rw [ih cut]
      rfl

/-- A text without two dots is not cut, and no other. -/
theorem cutAtDots_eq_none_iff : cutAtDots cs = none ↔ ¬ dots <:+: cs := by
  constructor
  · intro uncut
    induction cs with
    | nil => decide
    | cons c cs ih =>
      unfold cutAtDots at uncut
      split at uncut
      case h_1 nothing => cases nothing
      case h_2 => cases uncut
      case h_3 other whole =>
        cases whole
        rw [List.infix_cons_iff, not_or]
        refine ⟨?_, ih (Option.map_eq_none_iff.1 uncut)⟩
        rintro ⟨rest, starts⟩
        cases starts
        exact other rest rfl rfl
  · intro without
    cases cut : cutAtDots cs with
    | none => rfl
    | some parts => exact absurd ⟨parts.1, parts.2, (eq_of_cutAtDots cut).symm⟩ without

/-- A text is written in one way at most as a number, two dots and something behind them. -/
theorem cut_unique (same : front ++ dots ++ back = front' ++ dots ++ back')
    (first : readNumber front = .ok start) (first' : readNumber front' = .ok stop) :
    front = front' ∧ back = back' := by
  have cut := cutAtDots_append (dot_not_mem first) back
  rw [same, cutAtDots_append (dot_not_mem first')] at cut
  cases cut
  exact ⟨rfl, rfl⟩

/-! ## Ranges -/

/-- A text with dots is read half by half, the first half first. -/
theorem readRange_of_cut (cut : cutAtDots cs = some (front, back)) : readRange cs =
    ((readNumber front).mapError .number).bind fun start =>
      ((readNumber back).mapError .number).bind fun stop =>
        if stop < start then .error (.reversed start stop) else .ok ⟨start, stop⟩ := by
  rw [readRange, cut]
  rfl

/-- A text without dots is refused as such, whatever its numbers. -/
theorem readRange_of_uncut (without : ¬ dots <:+: cs) :
    readRange cs = .error (.noDots (String.ofList cs)) := by
  rw [readRange, cutAtDots_eq_none_iff.2 without]
  rfl

/-- Two numbers with two dots between them are a range, unless the first is the larger one. -/
theorem readRange_append (hstart : readNumber front = .ok start)
    (hstop : readNumber back = .ok stop) : readRange (front ++ dots ++ back) =
      if stop < start then .error (.reversed start stop) else .ok ⟨start, stop⟩ := by
  rw [readRange_of_cut (cutAtDots_append (dot_not_mem hstart) back), hstart, hstop]
  rfl

/-- A range is read off a text that is two numbers in order with two dots between them. -/
theorem readRange_eq_ok_iff : readRange cs = .ok r ↔ ∃ front back, cs = front ++ dots ++ back ∧
    readNumber front = .ok r.start ∧ readNumber back = .ok r.stop ∧ r.start ≤ r.stop := by
  constructor
  · intro h
    cases cut : cutAtDots cs with
    | none =>
      rw [readRange_of_uncut (cutAtDots_eq_none_iff.1 cut)] at h
      cases h
    | some parts =>
      obtain ⟨front, back⟩ := parts
      have whole := eq_of_cutAtDots cut
      cases hstart : readNumber front with
      | error e => rw [readRange_of_cut cut, hstart] at h; cases h
      | ok start =>
        cases hstop : readNumber back with
        | error e => rw [readRange_of_cut cut, hstart, hstop] at h; cases h
        | ok stop =>
          rw [whole, readRange_append hstart hstop] at h
          split at h
          case isTrue => cases h
          case isFalse ordered =>
            cases h
            exact ⟨front, back, whole, hstart, hstop, UInt16.not_lt.1 ordered⟩
  · rintro ⟨front, back, rfl, hstart, hstop, ordered⟩
    rw [readRange_append hstart hstop, if_neg (UInt16.not_lt.2 ordered)]

/-- A number of no least width is shown as its digits in base 16, with small letters. -/
theorem lower_one (n : Nat) : Hex.lower 1 n = String.ofList (Nat.toDigits 16 n) := by
  have pos : 0 < (Nat.toDigits 16 n).length := List.length_pos_iff.2 Nat.toDigits_ne_nil
  rw [Hex.lower, Hex.digits, List.leftpad, Nat.sub_eq_zero_of_le pos]
  rfl

/-- The message about a range in the wrong order names both bounds in small digits of base 16. -/
theorem message_reversed (start stop : UInt16) : (RangeError.reversed start stop).message =
    "range start 0x" ++ String.ofList (Nat.toDigits 16 start.toNat) ++ " is after end 0x" ++
      String.ofList (Nat.toDigits 16 stop.toNat) := by
  rw [← lower_one, ← lower_one]
  rfl

/-- **The syntax of ranges.** A text is read as a range just in case it can be written as two
numbers in order with two dots between them, and it can be written in no other way as two numbers
with two dots between them, whatever dots it has. Without two dots in it the error shows the whole
text, and for two numbers of which the first is the larger one it shows both in base 16. A range
that is read is ordered and ends at an address, and a memory has no words for it just in case it
ends behind the last cell. -/
theorem range_law (s : List Char) :
    (∀ r, readRange s = .ok r ↔ ∃ front back, s = front ++ dots ++ back ∧
      readNumber front = .ok r.start ∧ readNumber back = .ok r.stop ∧ r.start ≤ r.stop) ∧
    (∀ front back front' back' start stop start' stop',
      s = front ++ dots ++ back → readNumber front = .ok start → readNumber back = .ok stop →
      s = front' ++ dots ++ back' → readNumber front' = .ok start' → readNumber back' = .ok stop' →
      front = front' ∧ back = back') ∧
    (¬ dots <:+: s → ∃ e, readRange s = .error e ∧
      e.message = "expected START..END, got '" ++ String.ofList s ++ "'") ∧
    (∀ front back start stop, s = front ++ dots ++ back → readNumber front = .ok start →
      readNumber back = .ok stop → stop < start → ∃ e, readRange s = .error e ∧
        e.message = "range start 0x" ++ String.ofList (Nat.toDigits 16 start.toNat) ++
          " is after end 0x" ++ String.ofList (Nat.toDigits 16 stop.toNat)) ∧
    ∀ r, readRange s = .ok r → r.start ≤ r.stop ∧ r.stop.toNat ≤ 65535 ∧
      ∀ m : Memory, m.range r.start.toNat r.stop.toNat = none ↔ memoryWords < r.stop.toNat := by
  refine ⟨fun r => readRange_eq_ok_iff, ?_, fun without => ⟨_, readRange_of_uncut without, rfl⟩,
    ?_, fun r h => ?_⟩
  · rintro front back front' back' start stop start' stop' rfl hstart - same hstart' -
    exact cut_unique same hstart hstart'
  · rintro front back start stop rfl hstart hstop reversed
    refine ⟨.reversed start stop, ?_, message_reversed start stop⟩
    rw [readRange_append hstart hstop, if_pos reversed]
  · obtain ⟨-, -, -, -, -, ordered⟩ := readRange_eq_ok_iff.1 h
    refine ⟨ordered, Nat.le_of_lt_succ r.stop.toNat_lt, fun m => ?_⟩
    rcases Nat.lt_or_ge memoryWords r.stop.toNat with outside | inside
    · exact iff_of_true (Memory.range_of_lt outside) outside
    · rw [Memory.range_of_le (UInt16.le_iff_toNat_le.1 ordered) inside]
      exact iff_of_false nofun (Nat.not_lt.2 inside)

/-- A range that starts at the last cell and ends behind memory, one in the wrong order with a blank
and a sign, and a text with one dot. -/
theorem range_law_outside :
    (readNumber ['$', 'F', 'F'] = .ok 255 ∧ readNumber ['2', '5', '7'] = .ok 257 ∧
      readRange (['$', 'F', 'F'] ++ dots ++ ['2', '5', '7']) = .ok ⟨255, 257⟩ ∧
      Memory.zeros.range 255 257 = none) ∧
    (readNumber [' ', '+', '9'] = .ok 9 ∧ readNumber ['0', 'x', '8'] = .ok 8 ∧
      ∃ e, readRange ([' ', '+', '9'] ++ dots ++ ['0', 'x', '8']) = .error e) ∧
    (¬ dots <:+: ['1', '.', '2'] ∧ ∃ e, readRange ['1', '.', '2'] = .error e) := by
  have last : readNumber ['$', 'F', 'F'] = .ok 255 := by decide
  have behind : readNumber ['2', '5', '7'] = .ok 257 := by decide
  have nine : readNumber [' ', '+', '9'] = .ok 9 := by decide
  have eight : readNumber ['0', 'x', '8'] = .ok 8 := by decide
  have without : ¬ dots <:+: ['1', '.', '2'] := by decide
  obtain ⟨reads, -, -, -, answers⟩ := range_law (['$', 'F', 'F'] ++ dots ++ ['2', '5', '7'])
  obtain ⟨-, -, -, reversed, -⟩ := range_law ([' ', '+', '9'] ++ dots ++ ['0', 'x', '8'])
  obtain ⟨-, -, undotted, -⟩ := range_law ['1', '.', '2']
  have range := (reads ⟨255, 257⟩).2 ⟨_, _, rfl, last, behind, by decide⟩
  obtain ⟨e, error, -⟩ := reversed _ _ _ _ rfl nine eight (by decide)
  obtain ⟨e', error', -⟩ := undotted without
  obtain ⟨-, -, outside⟩ := answers _ range
  exact ⟨⟨last, behind, range, (outside .zeros).2 (by decide)⟩, ⟨nine, eight, e, error⟩,
    without, e', error'⟩

end Accumulator.Command
