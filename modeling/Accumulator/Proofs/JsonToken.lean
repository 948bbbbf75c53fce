import Mathlib.Data.List.TakeWhile
import Accumulator.Config.Json
import Accumulator.Proofs.Numeral

/-!
# Strings and numbers of JSON

The grammar of strings and of numbers, as relations between a text and what it denotes, and the
readers against them. A string is read up to the first quote that is not escaped, so its reader
answers just in case the text starts with a string (`readString_eq_some_iff`). A number has no mark
at its end: it is read as far as it goes, and the reader answers with the whole number in front of a
character that cannot continue it (`readNumber_append`).
-/

namespace Accumulator.Json

/-! ## White space -/

/-- The text is white space. -/
def IsWhite (cs : List Char) : Prop :=
  ∀ c ∈ cs, c ∈ [' ', '\t', '\n', '\r']

variable {cs rest white digits : List Char} {c : Char} {points : List Nat} {n : Option Nat}
  {j : Json}

/-- The test of the reader is the white space of the grammar. -/
theorem isSpace_iff : isSpace c = true ↔ c ∈ [' ', '\t', '\n', '\r'] := by
  simp [isSpace, or_assoc]

/-- White space is skipped up to what stands behind it. -/
theorem skipSpace_append (h : IsWhite white) (cs : List Char) :
    skipSpace (white ++ cs) = skipSpace cs := by
  rw [skipSpace, List.dropWhile_append_of_pos fun c hc => isSpace_iff.2 (h c hc)]
  rfl

/-- Nothing is skipped in front of a character that is no white space. -/
theorem skipSpace_cons (h : isSpace c = false) (cs : List Char) :
    skipSpace (c :: cs) = c :: cs :=
  List.dropWhile_cons_of_neg (Bool.eq_false_iff.1 h)

/-- What is skipped is white space. -/
theorem exists_skipSpace (cs : List Char) : ∃ white, IsWhite white ∧ cs = white ++ skipSpace cs :=
  ⟨cs.takeWhile isSpace, fun _ hc => isSpace_iff.1 (List.mem_takeWhile_imp hc),
    List.takeWhile_append_dropWhile.symm⟩

/-! ## Strings -/

/-- The one-letter escapes, each with the character that it stands for. -/
def escapes : List (Char × Char) :=
  [('"', '"'), ('\\', '\\'), ('/', '/'), ('b', '\x08'), ('f', '\x0c'), ('n', '\n'), ('r', '\r'),
    ('t', '\t')]

/-- The text of a string between its quotes, with the code points that it gives. -/
inductive StringText : List Nat → List Char → Prop
  | nil : StringText [] []
  /-- A character stands for itself; a control character, a quote and a backslash do not. -/
  | plain {c : Char} {points : List Nat} {cs : List Char} :
      0x20 ≤ c.toNat → c ≠ '"' → c ≠ '\\' → StringText points cs →
      StringText (c.toNat :: points) (c :: cs)
  | escape {letter c : Char} {points : List Nat} {cs : List Char} :
      (letter, c) ∈ escapes → StringText points cs →
      StringText (c.toNat :: points) ('\\' :: letter :: cs)
  /-- Four hexadecimal digits stand for a code point, or for half of a pair of them. -/
  | unicode {a b c d : Char} {points : List Nat} {cs : List Char} :
      (∀ x ∈ [a, b, c, d], Numeral.IsDigit 16 x) → StringText points cs →
      StringText (Numeral.number 16 [a, b, c, d] :: points) ('\\' :: 'u' :: a :: b :: c :: d :: cs)

/-- The reader knows the escapes of the table, and no others. -/
theorem escaped?_eq_some_iff {letter : Char} :
    escaped? letter = some c ↔ (letter, c) ∈ escapes := by
  unfold escaped?
  split <;> simp_all [escapes, eq_comm]

/-- Four characters give a code point just in case all of them are hexadecimal digits; the code
point is the number that they write. -/
theorem hex4?_eq_some_iff {a b c d : Char} {point : Nat} : hex4? a b c d = some point ↔
    (∀ x ∈ [a, b, c, d], Numeral.IsDigit 16 x) ∧ Numeral.number 16 [a, b, c, d] = point := by
  have value : Numeral.number 16 [a, b, c, d] = ((Numeral.digitValue a * 16 +
      Numeral.digitValue b) * 16 + Numeral.digitValue c) * 16 + Numeral.digitValue d := by
    simp [Numeral.number, Nat.ofDigits]
    omega
  simp only [hex4?, Option.bind_eq_bind, Option.bind_eq_some_iff,
    Numeral.digit?_eq_some_iff (Nat.le_refl 16), value, List.forall_mem_cons, Option.pure_def,
    Option.some.injEq]
  constructor
  · rintro ⟨_, ⟨ha, rfl⟩, _, ⟨hb, rfl⟩, _, ⟨hc, rfl⟩, _, ⟨hd, rfl⟩, rfl⟩
    exact ⟨⟨ha, hb, hc, hd, List.forall_mem_nil _⟩, rfl⟩
  · rintro ⟨⟨ha, hb, hc, hd, -⟩, rfl⟩
    exact ⟨_, ⟨ha, rfl⟩, _, ⟨hb, rfl⟩, _, ⟨hc, rfl⟩, _, ⟨hd, rfl⟩, rfl⟩

/-- The characters that stand for themselves are read one by one. -/
theorem readString_plain (control : 0x20 ≤ c.toNat) (quote : c ≠ '"') (backslash : c ≠ '\\')
    (cs : List Char) : readString (c :: cs) =
      (readString cs).map fun (points, rest) => (c.toNat :: points, rest) := by
  have ordinary : ¬ (c.toNat < 0x20 ∨ c = '\\') := not_or.2 ⟨Nat.not_lt.2 control, backslash⟩
  rw [readString]
  · rw [if_neg ordinary]
    cases readString cs <;> rfl
  · exact fun h => quote h
  · exact fun _ _ _ _ _ h => absurd h backslash
  · exact fun _ _ h => absurd h backslash

/-- An escape of one letter is read as the character that it stands for. -/
theorem readString_escape {letter : Char} (known : (letter, c) ∈ escapes) (cs : List Char) :
    readString ('\\' :: letter :: cs) =
      (readString cs).map fun (points, rest) => (c.toNat :: points, rest) := by
  have stands := escaped?_eq_some_iff.2 known
  have letter_ne : letter ≠ 'u' := by
    rintro rfl
    revert known
    simp [escapes]
  rw [readString]
  · rw [stands]
    cases readString cs <;> rfl
  · exact fun _ _ _ _ _ h => absurd h letter_ne

/-- A string is read up to the quote that ends it, whatever stands behind the quote. -/
theorem readString_append (h : StringText points cs) (rest : List Char) :
    readString (cs ++ '"' :: rest) = some (points, rest) := by
  induction h with
  | nil => rfl
  | plain control quote backslash _ ih =>
    rw [List.cons_append, readString_plain control quote backslash, ih]
    rfl
  | escape known _ ih =>
    rw [List.cons_append, List.cons_append, readString_escape known, ih]
    rfl
  | @unicode a b c d points cs digits _ ih =>
    have point := hex4?_eq_some_iff.2 ⟨digits, rfl⟩
    simp only [List.cons_append]
    rw [readString, point, ih]
    rfl

/-- **The reader of strings** answers just in case the text starts with a string. -/
theorem readString_eq_some_iff : readString cs = some (points, rest) ↔
    ∃ string, StringText points string ∧ cs = string ++ '"' :: rest := by
  constructor
  · intro h
    fun_induction readString cs generalizing points with
    | case1 => cases h
    | case2 tail =>
      cases h
      exact ⟨[], .nil, rfl⟩
    | case3 a b c d tail ih =>
      simp only [Option.bind_eq_bind, Option.bind_eq_some_iff] at h
      obtain ⟨_, point, ⟨points, rest⟩, hpoints, whole⟩ := h
      cases whole
      obtain ⟨string, spelled, rfl⟩ := ih hpoints
      obtain ⟨digits, rfl⟩ := hex4?_eq_some_iff.1 point
      exact ⟨_, .unicode digits spelled, rfl⟩
    | case4 letter tail _ ih =>
      simp only [Option.bind_eq_bind, Option.bind_eq_some_iff] at h
      obtain ⟨c, stands, ⟨points, rest⟩, hpoints, whole⟩ := h
      cases whole
      obtain ⟨string, spelled, rfl⟩ := ih hpoints
      exact ⟨_, .escape (escaped?_eq_some_iff.1 stands) spelled, rfl⟩
    | case5 => cases h
    | case6 c tail quote _ _ ordinary ih =>
      obtain ⟨control, backslash⟩ := not_or.1 ordinary
      simp only [Option.bind_eq_bind, Option.bind_eq_some_iff] at h
      obtain ⟨⟨points, rest⟩, hpoints, whole⟩ := h
      cases whole
      obtain ⟨string, spelled, rfl⟩ := ih hpoints
      exact ⟨_, .plain (Nat.not_lt.1 control) quote backslash spelled, rfl⟩
  · rintro ⟨string, spelled, rfl⟩
    exact readString_append spelled rest

/-! ## Numbers -/

/-- The whole part of a number: a zero alone, or digits that do not start with one. -/
structure IsWhole (cs : List Char) : Prop where
  nonempty : cs ≠ []
  digits : ∀ c ∈ cs, Numeral.IsDigit 10 c
  unpadded : cs.head? = some '0' → cs = ['0']

/-- The fraction of a number, if there is one. -/
inductive IsFraction : List Char → Prop
  | none : IsFraction []
  | some {digits : List Char} : digits ≠ [] → (∀ c ∈ digits, Numeral.IsDigit 10 c) →
      IsFraction ('.' :: digits)

/-- The exponent of a number, if there is one. -/
inductive IsExponent : List Char → Prop
  | none : IsExponent []
  | some {mark : Char} {sign digits : List Char} : mark ∈ ['e', 'E'] →
      sign ∈ [[], ['+'], ['-']] → digits ≠ [] → (∀ c ∈ digits, Numeral.IsDigit 10 c) →
      IsExponent (mark :: (sign ++ digits))

/-- The text of a number, with its value if it is written with digits alone. -/
inductive NumberText : Option Nat → List Char → Prop
  | natural {cs : List Char} : IsWhole cs → NumberText (some (Numeral.number 10 cs)) cs
  | real {sign whole fraction exponent : List Char} : sign ∈ [[], ['-']] → IsWhole whole →
      IsFraction fraction → IsExponent exponent →
      ¬ (sign = [] ∧ fraction = [] ∧ exponent = []) →
      NumberText none (sign ++ (whole ++ (fraction ++ exponent)))

/-- No number goes on with what the text starts with. -/
def EndsNumber (rest : List Char) : Prop :=
  ∀ c ∈ rest.head?, isDigit c = false ∧ c ∉ ['.', 'e', 'E']

/-- The decimal digits are those of radix ten, of the same values. -/
theorem digit?_ten (c : Char) :
    Numeral.digit? 10 c = if isDigit c = true then some (c.toNat - '0'.toNat) else none := by
  have bound : '9'.toNat - '0'.toNat < 10 := by decide
  have le (a b : Char) : a ≤ b ↔ a.toNat ≤ b.toNat := UInt32.le_iff_toNat_le
  simp only [Numeral.digit?, isDigit, Bool.and_eq_true, decide_eq_true_eq, le]
  split
  · rw [if_pos (by omega)]
  · split
    · rw [if_neg (by omega)]
    · split
      · rw [if_neg (by omega)]
      · rw [if_neg (by omega)]

/-- The test of the reader is the digits of the grammar. -/
theorem isDigit_iff : isDigit c = true ↔ Numeral.IsDigit 10 c := by
  have read : Numeral.digit? 10 c = none ↔ ¬ Numeral.IsDigit 10 c :=
    Numeral.digit?_eq_none_iff (by decide)
  rw [digit?_ten] at read
  split at read <;> simp_all

/-- Both ways of reading a decimal digit give one value, so the numbers of the two readers can be
compared. -/
theorem digitValue_eq (h : Numeral.IsDigit 10 c) :
    Numeral.digitValue c = c.toNat - '0'.toNat := by
  have read := (Numeral.digit?_eq_some_iff (by decide)).2 ⟨h, rfl⟩
  rw [digit?_ten, if_pos (isDigit_iff.2 h)] at read
  exact (Option.some.inj read).symm

/-- The value that the reader computes is the number that the digits write. -/
theorem valueOfDigits_eq (h : ∀ c ∈ digits, Numeral.IsDigit 10 c) :
    valueOfDigits digits = Numeral.number 10 digits := by
  induction digits using List.reverseRecOn with
  | nil => rfl
  | append_singleton digits c ih =>
    obtain ⟨front, last⟩ := List.forall_mem_append.1 h
    rw [valueOfDigits, Nat.ofDigitChars_append, Numeral.number_concat, ← ih front,
      digitValue_eq (List.forall_mem_singleton.1 last), Nat.mul_comm]
    rfl

/-! ### Runs of digits -/

/-- Digits are read up to the first character that is none. -/
theorem readDigits_append (nonempty : digits ≠ []) (h : ∀ c ∈ digits, Numeral.IsDigit 10 c)
    (ends : ∀ c ∈ rest.head?, isDigit c = false) :
    readDigits (digits ++ rest) = some (digits, rest) := by
  have all : ∀ c ∈ digits, isDigit c = true := fun c hc => isDigit_iff.2 (h c hc)
  have stop : rest.takeWhile isDigit = [] ∧ rest.dropWhile isDigit = rest := by
    cases rest with
    | nil => exact ⟨rfl, rfl⟩
    | cons c rest =>
      have other := Bool.eq_false_iff.1 (ends c rfl)
      exact ⟨List.takeWhile_cons_of_neg other, List.dropWhile_cons_of_neg other⟩
  rw [readDigits, List.takeWhile_append_of_pos all, List.dropWhile_append_of_pos all, stop.1,
    stop.2, List.append_nil]
  cases digits with
  | nil => exact absurd rfl nonempty
  | cons c digits => rfl

/-- What is read as digits is a run of them in front of the rest. -/
theorem readDigits_eq_some (h : readDigits cs = some (digits, rest)) :
    digits ≠ [] ∧ (∀ c ∈ digits, Numeral.IsDigit 10 c) ∧ cs = digits ++ rest := by
  rw [readDigits] at h
  split at h
  · cases h
  case h_2 nonempty =>
    cases h
    exact ⟨nonempty, fun c hc => isDigit_iff.1 (List.mem_takeWhile_imp hc),
      List.takeWhile_append_dropWhile.symm⟩

/-! ### Parts of a number -/

/-- A whole part is read up to the first character that is no digit. Behind a single zero it ends in
any case. -/
theorem readWhole_append {whole : List Char} (h : IsWhole whole)
    (ends : ∀ c ∈ rest.head?, isDigit c = false) :
    readWhole (whole ++ rest) = some (whole, rest) := by
  by_cases zero : whole = ['0']
  · rw [zero]
    rfl
  · unfold readWhole
    split
    case h_1 starts =>
      have head : whole.head? = some '0' := by
        cases whole with
        | nil => exact absurd rfl h.nonempty
        | cons c whole =>
          cases starts
          rfl
      exact absurd (h.unpadded head) zero
    case h_2 => exact readDigits_append h.nonempty h.digits ends

/-- What is read as a whole part is one: the reader takes a leading zero alone. -/
theorem readWhole_eq_some {whole : List Char} (h : readWhole cs = some (whole, rest)) :
    IsWhole whole ∧ cs = whole ++ rest := by
  unfold readWhole at h
  split at h
  · cases h
    exact ⟨⟨List.cons_ne_nil _ _, List.forall_mem_singleton.2 (by decide), fun _ => rfl⟩, rfl⟩
  case h_2 other =>
    obtain ⟨nonempty, digits, rfl⟩ := readDigits_eq_some h
    refine ⟨⟨nonempty, digits, fun head => ?_⟩, rfl⟩
    cases whole with
    | nil => cases head
    | cons c whole =>
      cases head
      exact absurd rfl (other _)

/-- A fraction is read as given, and a missing one as missing if no point follows. -/
theorem readFraction_append {fraction : List Char} (h : IsFraction fraction)
    (ends : ∀ c ∈ rest.head?, isDigit c = false ∧ c ≠ '.') :
    readFraction (fraction ++ rest) = some (!fraction.isEmpty, rest) := by
  cases h with
  | none =>
    rw [List.nil_append]
    unfold readFraction
    split
    case h_1 => exact absurd rfl (ends '.' rfl).2
    case h_2 => rfl
  | some nonempty digits =>
    rw [List.cons_append, readFraction,
      readDigits_append nonempty digits fun c hc => (ends c hc).1]
    rfl

/-- What is read as a fraction is one, or nothing. -/
theorem readFraction_eq_some {given : Bool} (h : readFraction cs = some (given, rest)) :
    ∃ fraction, IsFraction fraction ∧ cs = fraction ++ rest ∧ given = !fraction.isEmpty := by
  unfold readFraction at h
  split at h
  · simp only [Option.bind_eq_bind, Option.bind_eq_some_iff] at h
    obtain ⟨⟨digits, tail⟩, hdigits, whole⟩ := h
    cases whole
    obtain ⟨nonempty, digits, rfl⟩ := readDigits_eq_some hdigits
    exact ⟨_, .some nonempty digits, rfl, rfl⟩
  · cases h
    exact ⟨[], .none, rfl, rfl⟩

/-- A text without the sign that it may start with. -/
def dropSign : List Char → List Char
  | '+' :: digits | '-' :: digits => digits
  | digits => digits

/-- Behind its mark an exponent is a run of digits, with or without a sign. -/
theorem readExponent_cons {mark : Char} (h : mark ∈ ['e', 'E']) (cs : List Char) :
    readExponent (mark :: cs) = (readDigits (dropSign cs)).map fun (_, rest) => (true, rest) := by
  have marked : mark = 'e' ∨ mark = 'E' := by simpa using h
  unfold readExponent
  dsimp only
  rw [if_pos marked]
  change (readDigits (dropSign cs) >>= fun x => some (true, x.2)) = _
  cases readDigits (dropSign cs) <;> rfl

/-- Without a mark there is no exponent, and nothing is read. -/
theorem readExponent_of_head? (h : ∀ c ∈ cs.head?, c ∉ ['e', 'E']) :
    readExponent cs = some (false, cs) := by
  cases cs with
  | nil => rfl
  | cons c cs =>
    have unmarked : ¬ (c = 'e' ∨ c = 'E') := by simpa using h c rfl
    unfold readExponent
    exact if_neg unmarked

/-- A sign is left out, and digits do not start with one. -/
theorem dropSign_append {sign : List Char} (h : sign ∈ [[], ['+'], ['-']])
    (nonempty : digits ≠ []) (all : ∀ c ∈ digits, Numeral.IsDigit 10 c) (rest : List Char) :
    dropSign (sign ++ (digits ++ rest)) = digits ++ rest := by
  obtain ⟨c, digits, rfl⟩ := List.exists_cons_of_ne_nil nonempty
  have digit := all c List.mem_cons_self
  rcases List.mem_cons.1 h with rfl | h
  · rw [List.nil_append, List.cons_append]
    unfold dropSign
    split
    case h_1 starts =>
      cases starts
      exact absurd digit (by decide)
    case h_2 starts =>
      cases starts
      exact absurd digit (by decide)
    case h_3 => rfl
  · rcases List.mem_cons.1 h with rfl | h
    · rfl
    · rw [List.mem_singleton.1 h]
      rfl

/-- What is left out is a sign of the grammar, or nothing. -/
theorem exists_dropSign (cs : List Char) :
    ∃ sign, sign ∈ [[], ['+'], ['-']] ∧ cs = sign ++ dropSign cs := by
  unfold dropSign
  split
  · exact ⟨['+'], by simp, rfl⟩
  · exact ⟨['-'], by simp, rfl⟩
  · exact ⟨[], by simp, rfl⟩

/-- An exponent is read as given, and a missing one as missing if nothing follows that could start
one. -/
theorem readExponent_append {exponent : List Char} (h : IsExponent exponent)
    (ends : EndsNumber rest) :
    readExponent (exponent ++ rest) = some (!exponent.isEmpty, rest) := by
  cases h with
  | none =>
    rw [List.nil_append]
    refine readExponent_of_head? fun c hc mark => (ends c hc).2 (List.mem_cons_of_mem _ mark)
  | some mark sign nonempty digits =>
    rw [List.cons_append, List.append_assoc, readExponent_cons mark,
      dropSign_append sign nonempty digits,
      readDigits_append nonempty digits fun c hc => (ends c hc).1]
    rfl

/-- What is read as an exponent is one, or nothing. -/
theorem readExponent_eq_some {given : Bool} (h : readExponent cs = some (given, rest)) :
    ∃ exponent, IsExponent exponent ∧ cs = exponent ++ rest ∧ given = !exponent.isEmpty := by
  by_cases marked : ∃ mark tail, mark ∈ ['e', 'E'] ∧ cs = mark :: tail
  · obtain ⟨mark, tail, hmark, rfl⟩ := marked
    rw [readExponent_cons hmark, Option.map_eq_some_iff] at h
    obtain ⟨⟨digits, rest⟩, hdigits, whole⟩ := h
    cases whole
    obtain ⟨sign, hsign, split⟩ := exists_dropSign tail
    obtain ⟨nonempty, all, behind⟩ := readDigits_eq_some hdigits
    refine ⟨_, .some hmark hsign nonempty all, ?_, rfl⟩
    rw [List.cons_append, List.append_assoc, ← behind, ← split]
  · have unmarked : ∀ c ∈ cs.head?, c ∉ ['e', 'E'] := by
      intro c hc mark
      obtain ⟨tail, rfl⟩ := List.head?_eq_some_iff.1 hc
      exact marked ⟨c, tail, mark, rfl⟩
    rw [readExponent_of_head? unmarked] at h
    cases h
    exact ⟨[], .none, rfl, rfl⟩

/-! ### Whole numbers -/

/-- A number without a sign is read part by part, and has a value just in case it is a whole part
alone. -/
theorem readUnsigned_append {whole fraction exponent : List Char} (hwhole : IsWhole whole)
    (hfraction : IsFraction fraction) (hexponent : IsExponent exponent) (ends : EndsNumber rest) :
    readUnsigned (whole ++ (fraction ++ (exponent ++ rest))) =
      some (if fraction = [] ∧ exponent = [] then some (Numeral.number 10 whole) else none,
        rest) := by
  -- a part ends where the next one starts: with a point, with a mark, or behind the number
  have behindFraction : ∀ c ∈ (exponent ++ rest).head?, isDigit c = false ∧ c ≠ '.' := by
    cases hexponent with
    | none =>
      refine fun c hc => ⟨(ends c hc).1, ?_⟩
      rintro rfl
      exact (ends '.' hc).2 (by decide)
    | some mark =>
      have marks : ∀ c ∈ ['e', 'E'], isDigit c = false ∧ c ≠ '.' := by simp [isDigit]
      intro c hc
      cases hc
      exact marks _ mark
  have behindWhole : ∀ c ∈ (fraction ++ (exponent ++ rest)).head?, isDigit c = false := by
    cases hfraction with
    | none => exact fun c hc => (behindFraction c hc).1
    | some =>
      intro c hc
      cases hc
      rfl
  have value := valueOfDigits_eq hwhole.digits
  simp only [readUnsigned, readWhole_append hwhole behindWhole,
    readFraction_append hfraction behindFraction, readExponent_append hexponent ends, value,
    Option.bind_eq_bind, Option.bind_some]
  cases fraction <;> cases exponent <;> rfl

/-- What is read as a number without a sign has the three parts, and a value just in case it is a
whole part alone. -/
theorem readUnsigned_eq_some (h : readUnsigned cs = some (n, rest)) :
    ∃ whole fraction exponent, IsWhole whole ∧ IsFraction fraction ∧ IsExponent exponent ∧
      cs = whole ++ (fraction ++ (exponent ++ rest)) ∧
      n = if fraction = [] ∧ exponent = [] then some (Numeral.number 10 whole) else none := by
  simp only [readUnsigned, Option.bind_eq_bind, Option.bind_eq_some_iff] at h
  obtain ⟨⟨whole, _⟩, hwhole, ⟨_, _⟩, hfraction, ⟨_, _⟩, hexponent, value⟩ := h
  obtain ⟨isWhole, rfl⟩ := readWhole_eq_some hwhole
  obtain ⟨fraction, isFraction, rfl, rfl⟩ := readFraction_eq_some hfraction
  obtain ⟨exponent, isExponent, rfl, rfl⟩ := readExponent_eq_some hexponent
  have digits := valueOfDigits_eq isWhole.digits
  cases value
  refine ⟨whole, fraction, exponent, isWhole, isFraction, isExponent, rfl, ?_⟩
  rw [digits]
  cases fraction <;> cases exponent <;> rfl

/-- The text of a number does not go on with a sign behind its own. -/
theorem IsWhole.head?_ne (h : IsWhole cs) (rest : List Char) : (cs ++ rest).head? ≠ some '-' := by
  obtain ⟨c, cs, rfl⟩ := List.exists_cons_of_ne_nil h.nonempty
  have digit := h.digits c List.mem_cons_self
  intro head
  cases head
  exact absurd digit (by decide)

/-- Without a minus sign a number is what its unsigned part is. -/
theorem readNumber_of_head? (h : cs.head? ≠ some '-') : readNumber cs =
    (readUnsigned cs).map fun (natural, rest) => (.number natural, rest) := by
  unfold readNumber
  split
  · exact absurd rfl h
  · cases readUnsigned cs <;> rfl

/-- **The reader of numbers** reads a number as far as it goes. -/
theorem readNumber_append (h : NumberText n cs) (ends : EndsNumber rest) :
    readNumber (cs ++ rest) = some (.number n, rest) := by
  cases h with
  | natural hwhole =>
    have whole := readUnsigned_append hwhole .none .none ends
    rw [List.nil_append, List.nil_append] at whole
    rw [readNumber_of_head? (hwhole.head?_ne rest), whole]
    rfl
  | real hsign hwhole hfraction hexponent marked =>
    have unsigned := readUnsigned_append hwhole hfraction hexponent ends
    simp only [List.append_assoc]
    rcases List.mem_cons.1 hsign with rfl | hsign
    · have real := fun plain => marked ⟨rfl, plain⟩
      rw [List.nil_append, readNumber_of_head? (hwhole.head?_ne _), unsigned, if_neg real]
      rfl
    · rw [List.mem_singleton.1 hsign, List.singleton_append, readNumber, unsigned]
      rfl

/-- What is read as a number is one, in front of the rest. -/
theorem exists_numberText (h : readNumber cs = some (j, rest)) :
    ∃ n number, j = .number n ∧ NumberText n number ∧ cs = number ++ rest := by
  unfold readNumber at h
  split at h
  · simp only [Option.bind_eq_bind, Option.bind_eq_some_iff] at h
    obtain ⟨⟨n, _⟩, hunsigned, whole⟩ := h
    cases whole
    obtain ⟨whole, fraction, exponent, isWhole, isFraction, isExponent, rfl, -⟩ :=
      readUnsigned_eq_some hunsigned
    refine ⟨none, ['-'] ++ (whole ++ (fraction ++ exponent)), rfl,
      .real (by simp) isWhole isFraction isExponent (by simp), ?_⟩
    simp only [List.cons_append, List.nil_append, List.append_assoc]
  · simp only [Option.bind_eq_bind, Option.bind_eq_some_iff] at h
    obtain ⟨⟨n, _⟩, hunsigned, whole⟩ := h
    cases whole
    obtain ⟨whole, fraction, exponent, isWhole, isFraction, isExponent, rfl, rfl⟩ :=
      readUnsigned_eq_some hunsigned
    refine ⟨_, whole ++ (fraction ++ exponent), rfl, ?_, by simp only [List.append_assoc]⟩
    split
    case isTrue plain =>
      rw [plain.1, plain.2, List.append_nil, List.append_nil]
      exact .natural isWhole
    case isFalse marked =>
      have unsigned : [] ∈ [[], ['-']] := List.mem_cons_self
      exact .real unsigned isWhole isFraction isExponent fun plain => marked plain.2

end Accumulator.Json
