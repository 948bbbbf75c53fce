import Accumulator.Proofs.JsonToken

/-!
# The texts of a JSON value

The grammar of JSON as a relation between a part of a text and what the part denotes: a value, an
element, which is a value with white space around it, the elements of a list, a member of an object
and its members. Of all texts the reader accepts those that are an element, and answers with the
value (`parse_eq_some_iff`).
-/

namespace Accumulator.Json

/-- What a part of a text can denote. -/
inductive Part where
  | value (j : Json)
  /-- A value with white space around it. -/
  | element (j : Json)
  /-- The elements of a list, at least one, with commas between them. -/
  | elements (items : List Json)
  | member (m : List Nat × Json)
  /-- The members of an object, at least one, with commas between them. -/
  | members (ms : List (List Nat × Json))

/-- The grammar of JSON. -/
inductive Derives : Part → List Char → Prop
  | null : Derives (.value .null) ['n', 'u', 'l', 'l']
  | true : Derives (.value (.bool true)) ['t', 'r', 'u', 'e']
  | false : Derives (.value (.bool false)) ['f', 'a', 'l', 's', 'e']
  | number {n : Option Nat} {cs : List Char} :
      NumberText n cs → Derives (.value (.number n)) cs
  | string {points : List Nat} {cs : List Char} :
      StringText points cs → Derives (.value (.string points)) ('"' :: (cs ++ ['"']))
  | emptyArray {white : List Char} :
      IsWhite white → Derives (.value (.array [])) ('[' :: (white ++ [']']))
  | array {items : List Json} {cs : List Char} :
      Derives (.elements items) cs → Derives (.value (.array items)) ('[' :: (cs ++ [']']))
  | emptyObject {white : List Char} :
      IsWhite white → Derives (.value (.object [])) ('{' :: (white ++ ['}']))
  | object {ms : List (List Nat × Json)} {cs : List Char} :
      Derives (.members ms) cs → Derives (.value (.object ms)) ('{' :: (cs ++ ['}']))
  | element {j : Json} {front cs back : List Char} :
      IsWhite front → Derives (.value j) cs → IsWhite back →
      Derives (.element j) (front ++ (cs ++ back))
  | lastElement {j : Json} {cs : List Char} :
      Derives (.element j) cs → Derives (.elements [j]) cs
  | moreElements {j : Json} {items : List Json} {cs rest : List Char} :
      Derives (.element j) cs → Derives (.elements items) rest →
      Derives (.elements (j :: items)) (cs ++ ',' :: rest)
  | member {key : List Nat} {j : Json} {front string back cs : List Char} :
      IsWhite front → StringText key string → IsWhite back → Derives (.element j) cs →
      Derives (.member (key, j)) (front ++ '"' :: (string ++ '"' :: (back ++ ':' :: cs)))
  | lastMember {m : List Nat × Json} {cs : List Char} :
      Derives (.member m) cs → Derives (.members [m]) cs
  | moreMembers {m : List Nat × Json} {ms : List (List Nat × Json)} {cs rest : List Char} :
      Derives (.member m) cs → Derives (.members ms) rest →
      Derives (.members (m :: ms)) (cs ++ ',' :: rest)

variable {j : Json} {items : List Json} {m : List Nat × Json} {ms : List (List Nat × Json)}
  {cs rest white : List Char} {c : Char} {depth : Nat} {part : Part} {n : Option Nat}

/-! ## What the reader answers with -/

/-- What may follow an element: nothing, a comma or a closing bracket. -/
def Closes (rest : List Char) : Prop :=
  ∀ c ∈ rest.head?, c ∈ [',', ']', '}']

/-- No number goes on into white space or into what may follow an element. -/
theorem endsNumber_of_closes (hwhite : IsWhite white) (h : Closes rest) :
    EndsNumber (white ++ rest) := by
  have spaces : ∀ c ∈ [' ', '\t', '\n', '\r'], isDigit c = false ∧ c ∉ ['.', 'e', 'E'] := by
    simp [isDigit]
  have closing : ∀ c ∈ [',', ']', '}'], isDigit c = false ∧ c ∉ ['.', 'e', 'E'] := by
    simp [isDigit]
  intro c hc
  cases white with
  | nil => exact closing c (h c hc)
  | cons space white =>
    cases hc
    exact spaces _ (hwhite _ List.mem_cons_self)

/-- White space in front of what may follow an element is skipped as a whole. -/
theorem skipSpace_of_closes (hwhite : IsWhite white) (h : Closes rest) :
    skipSpace (white ++ rest) = rest := by
  have closing : ∀ c ∈ [',', ']', '}'], isSpace c = false := by simp [isSpace]
  rw [skipSpace_append hwhite]
  cases rest with
  | nil => rfl
  | cons c rest => exact skipSpace_cons (closing c (h c rfl)) rest

/-- White space is skipped once: what is left does not start with any. -/
theorem skipSpace_skipSpace (cs : List Char) : skipSpace (skipSpace cs) = skipSpace cs := by
  obtain ⟨white, hwhite, split⟩ := exists_skipSpace cs
  have skipped := skipSpace_append hwhite (skipSpace cs)
  rw [← split] at skipped
  exact skipped.symm

/-- The reader of values skips white space itself, so it does not matter who skips it. -/
theorem readValue_skipSpace (depth : Nat) (cs : List Char) :
    readValue depth (skipSpace cs) = readValue depth cs := by
  cases depth with
  | zero => rfl
  | succ depth => rw [readValue, readValue, skipSpace_skipSpace]

theorem readItems_skipSpace (depth : Nat) (cs : List Char) :
    readItems depth (skipSpace cs) = readItems depth cs := by
  cases depth with
  | zero => rfl
  | succ depth => rw [readItems, readItems, readValue_skipSpace]

theorem readMembers_skipSpace (depth : Nat) (cs : List Char) :
    readMembers depth (skipSpace cs) = readMembers depth cs := by
  cases depth with
  | zero => rfl
  | succ depth => rw [readMembers, readMembers, skipSpace_skipSpace]

/-! ## Every text of the grammar is read -/

/-- The reader answers with what the part denotes, wherever the part stands. Behind it there is what
may follow, and the depth is at least twice the length of the text. -/
def Reads : Part → List Char → Prop
  | .value j, cs => ∀ depth white rest, 2 * cs.length ≤ depth → IsWhite white →
      EndsNumber rest → readValue depth (white ++ (cs ++ rest)) = some (j, rest)
  | .element j, cs => ∀ depth rest, 2 * cs.length ≤ depth → Closes rest →
      ∃ rest', readValue depth (cs ++ rest) = some (j, rest') ∧ skipSpace rest' = rest
  | .elements items, cs => ∀ depth rest, 2 * cs.length < depth →
      readItems depth (cs ++ ']' :: rest) = some (items, rest)
  | .member (key, j), cs => ∀ depth rest, 2 * cs.length ≤ depth → Closes rest →
      ∃ string tail value rest', skipSpace (cs ++ rest) = '"' :: string ∧
        readString string = some (key, tail) ∧ skipSpace tail = ':' :: value ∧
        readValue depth value = some (j, rest') ∧ skipSpace rest' = rest
  | .members ms, cs => ∀ depth rest, 2 * cs.length < depth →
      readMembers depth (cs ++ '}' :: rest) = some (ms, rest)

/-- What starts a value other than a number. -/
def openings : List Char :=
  ['n', 't', 'f', '"', '[', '{']

/-- A digit is no white space and starts no other value. -/
theorem ordinary_of_isDigit (h : Numeral.IsDigit 10 c) : c ∉ openings ∧ isSpace c = false := by
  have marks : ∀ c ∈ openings, ¬ Numeral.IsDigit 10 c := by
    simp [openings, ← isDigit_iff, isDigit]
  have spaces : ∀ c ∈ [' ', '\t', '\n', '\r'], ¬ Numeral.IsDigit 10 c := by
    simp [← isDigit_iff, isDigit]
  exact ⟨fun hc => marks c hc h,
    Bool.eq_false_iff.2 fun space => spaces c (isSpace_iff.1 space) h⟩

/-- A number starts like no other value, with a digit or a minus sign. -/
theorem NumberText.exists_cons (h : NumberText n cs) :
    ∃ c tail, cs = c :: tail ∧ c ∉ openings ∧ isSpace c = false := by
  cases h with
  | natural whole =>
    obtain ⟨c, tail, rfl⟩ := List.exists_cons_of_ne_nil whole.nonempty
    exact ⟨c, tail, rfl, ordinary_of_isDigit (whole.digits c List.mem_cons_self)⟩
  | real sign whole =>
    obtain ⟨c, tail, rfl⟩ := List.exists_cons_of_ne_nil whole.nonempty
    rcases List.mem_cons.1 sign with rfl | sign
    · exact ⟨c, _, rfl, ordinary_of_isDigit (whole.digits c List.mem_cons_self)⟩
    · rw [List.mem_singleton.1 sign]
      exact ⟨'-', _, rfl, by decide, by decide⟩

/-- What starts like no other value is read as a number. -/
theorem readValue_of_ordinary (h : c ∉ openings) (space : isSpace c = false) (depth : Nat)
    (cs : List Char) : readValue (depth + 1) (c :: cs) = readNumber (c :: cs) := by
  simp only [openings, List.mem_cons, not_or] at h
  rw [readValue, skipSpace_cons space]
  split <;> simp_all

/-- No element of a list starts with the bracket that closes the list. -/
theorem readItems_close (depth : Nat) (rest : List Char) :
    readItems depth (']' :: rest) = none := by
  cases depth with
  | zero => rfl
  | succ depth =>
    cases depth with
    | zero => rfl
    | succ depth =>
      rw [readItems, readValue_of_ordinary (by decide) (by decide)]
      rfl

/-- No member of an object starts with the brace that closes the object. -/
theorem readMembers_close (depth : Nat) (rest : List Char) :
    readMembers depth ('}' :: rest) = none := by
  cases depth <;> rfl

/-- A value that is told by its first characters. -/
theorem Reads.value {mark : Char} {cs : List Char} (space : isSpace mark = false)
    (h : ∀ depth rest, 2 * cs.length + 1 ≤ depth → EndsNumber rest →
      readValue (depth + 1) (mark :: (cs ++ rest)) = some (j, rest)) :
    Reads (.value j) (mark :: cs) := by
  intro depth white rest bound hwhite ends
  rw [← readValue_skipSpace, skipSpace_append hwhite, List.cons_append, skipSpace_cons space]
  cases depth with
  | zero => simp at bound
  | succ depth =>
    rw [List.length_cons] at bound
    exact h depth rest (by omega) ends

/-- A bracket opens a list: an empty one if nothing but white space stands before the next bracket,
and one with elements otherwise. -/
theorem readValue_bracket (depth : Nat) (cs : List Char) : readValue (depth + 1) ('[' :: cs) =
    match skipSpace cs with
    | ']' :: rest => some (.array [], rest)
    | rest => (readItems depth rest).map fun (items, rest) => (.array items, rest) := by
  rw [readValue]
  rfl

/-- A brace opens an object, as a bracket opens a list. -/
theorem readValue_brace (depth : Nat) (cs : List Char) : readValue (depth + 1) ('{' :: cs) =
    match skipSpace cs with
    | '}' :: rest => some (.object [], rest)
    | rest => (readMembers depth rest).map fun (ms, rest) => (.object ms, rest) := by
  rw [readValue]
  rfl

/-- A list is read as its elements; no element starts with the bracket of an empty list. -/
theorem readValue_array (h : readItems depth cs = some (items, rest)) :
    readValue (depth + 1) ('[' :: cs) = some (.array items, rest) := by
  rw [← readItems_skipSpace] at h
  rw [readValue_bracket]
  split
  case h_1 closes =>
    rw [closes, readItems_close] at h
    cases h
  case h_2 =>
    rw [h]
    rfl

/-- An object is read as its members; no member starts with the brace of an empty object. -/
theorem readValue_object (h : readMembers depth cs = some (ms, rest)) :
    readValue (depth + 1) ('{' :: cs) = some (.object ms, rest) := by
  rw [← readMembers_skipSpace] at h
  rw [readValue_brace]
  split
  case h_1 closes =>
    rw [closes, readMembers_close] at h
    cases h
  case h_2 =>
    rw [h]
    rfl

/-- An element in front of the closing bracket is the last one. -/
theorem readItems_last {tail : List Char} (h : readValue depth cs = some (j, tail))
    (close : skipSpace tail = ']' :: rest) : readItems (depth + 1) cs = some ([j], rest) := by
  simp only [readItems, h, Option.bind_eq_bind, Option.bind_some, close]
  rfl

/-- Behind a comma the elements go on. -/
theorem readItems_more {tail more : List Char} (h : readValue depth cs = some (j, tail))
    (comma : skipSpace tail = ',' :: more) (others : readItems depth more = some (items, rest)) :
    readItems (depth + 1) cs = some (j :: items, rest) := by
  simp only [readItems, h, Option.bind_eq_bind, Option.bind_some, comma, others]
  rfl

section
variable {key : List Nat} {string tail value behind more : List Char}
  (opens : skipSpace cs = '"' :: string) (spelled : readString string = some (key, tail))
  (colon : skipSpace tail = ':' :: value) (h : readValue depth value = some (j, behind))

include opens spelled colon h

/-- A member in front of the closing brace is the last one. -/
theorem readMembers_last (close : skipSpace behind = '}' :: rest) :
    readMembers (depth + 1) cs = some ([(key, j)], rest) := by
  simp only [readMembers, opens, spelled, colon, h, Option.bind_eq_bind, Option.bind_some, close]
  rfl

/-- Behind a comma the members go on. -/
theorem readMembers_more (comma : skipSpace behind = ',' :: more)
    (others : readMembers depth more = some (ms, rest)) :
    readMembers (depth + 1) cs = some ((key, j) :: ms, rest) := by
  simp only [readMembers, opens, spelled, colon, h, Option.bind_eq_bind, Option.bind_some, comma,
    others]
  rfl

end

/-- **The reader is complete.** -/
theorem reads_of_derives (h : Derives part cs) : Reads part cs := by
  have bracket (rest : List Char) : Closes (']' :: rest) := by simp [Closes]
  have brace (rest : List Char) : Closes ('}' :: rest) := by simp [Closes]
  have comma (rest : List Char) : Closes (',' :: rest) := by simp [Closes]
  -- Along the derivation. A list or an object takes one level of depth for itself and one for each
  -- element or member in front of the last; its brackets and commas pay for these.
  induction h with
  | null => exact .value rfl fun _ _ _ _ => rfl
  | true => exact .value rfl fun _ _ _ _ => rfl
  | false => exact .value rfl fun _ _ _ _ => rfl
  | @number n cs h =>
    obtain ⟨c, tail, rfl, ordinary, space⟩ := h.exists_cons
    refine .value space fun depth rest _ ends => ?_
    rw [readValue_of_ordinary ordinary space, ← List.cons_append, readNumber_append h ends]
  | @string points cs spelled =>
    refine .value rfl fun depth rest _ _ => ?_
    have read := readString_append spelled rest
    rw [List.append_assoc, List.singleton_append]
    change (readString (cs ++ '"' :: rest)).map _ = _
    rw [read]
    rfl
  | @emptyArray white hwhite =>
    refine .value rfl fun depth rest _ _ => ?_
    rw [List.append_assoc, List.singleton_append, readValue_bracket,
      skipSpace_of_closes hwhite (bracket rest)]
    rfl
  | @emptyObject white hwhite =>
    refine .value rfl fun depth rest _ _ => ?_
    rw [List.append_assoc, List.singleton_append, readValue_brace,
      skipSpace_of_closes hwhite (brace rest)]
    rfl
  | array _ ih =>
    refine .value rfl fun depth rest bound _ => ?_
    rw [List.append_assoc, List.singleton_append]
    rw [List.length_append, List.length_singleton] at bound
    exact readValue_array (ih depth rest (by omega))
  | object _ ih =>
    refine .value rfl fun depth rest bound _ => ?_
    rw [List.append_assoc, List.singleton_append]
    rw [List.length_append, List.length_singleton] at bound
    exact readValue_object (ih depth rest (by omega))
  | element hfront _ hback ih =>
    intro depth rest bound closes
    refine ⟨_, ?_, skipSpace_of_closes hback closes⟩
    simp only [List.length_append] at bound
    simp only [List.append_assoc]
    exact ih depth _ _ (by omega) hfront (endsNumber_of_closes hback closes)
  | lastElement _ ih =>
    intro depth rest bound
    cases depth with
    | zero => cases bound
    | succ depth =>
      obtain ⟨tail, read, close⟩ := ih depth _ (by omega) (bracket rest)
      exact readItems_last read close
  | @moreElements j items cs more _ _ ih ih' =>
    intro depth rest bound
    rw [List.length_append, List.length_cons] at bound
    rw [List.append_assoc, List.cons_append]
    cases depth with
    | zero => cases bound
    | succ depth =>
      obtain ⟨tail, read, next⟩ := ih depth _ (by omega) (comma (more ++ ']' :: rest))
      exact readItems_more read next (ih' depth rest (by omega))
  | @member key j front string back cs hfront spelled hback _ ih =>
    intro depth rest bound closes
    simp only [List.length_append, List.length_cons] at bound
    obtain ⟨tail, read, next⟩ := ih depth rest (by omega) closes
    refine ⟨string ++ '"' :: (back ++ ':' :: (cs ++ rest)), back ++ ':' :: (cs ++ rest),
      cs ++ rest, tail, ?_, readString_append spelled _, ?_, read, next⟩
    · simp only [List.append_assoc, List.cons_append]
      rw [skipSpace_append hfront]
      rfl
    · rw [skipSpace_append hback]
      rfl
  | @lastMember m cs _ ih =>
    intro depth rest bound
    cases depth with
    | zero => cases bound
    | succ depth =>
      obtain ⟨string, tail, value, behind, opens, spelled, colon, read, close⟩ :=
        ih depth _ (by omega) (brace rest)
      exact readMembers_last opens spelled colon read close
  | @moreMembers m ms cs more _ _ ih ih' =>
    intro depth rest bound
    rw [List.length_append, List.length_cons] at bound
    rw [List.append_assoc, List.cons_append]
    cases depth with
    | zero => cases bound
    | succ depth =>
      obtain ⟨string, tail, value, behind, opens, spelled, colon, read, next⟩ :=
        ih depth _ (by omega) (comma (more ++ '}' :: rest))
      exact readMembers_more opens spelled colon read next (ih' depth rest (by omega))

/-! ## What is read is a text of the grammar -/

/-- What the readers answer with down to a depth stands in the text. -/
structure Sound (depth : Nat) : Prop where
  value : ∀ {cs rest : List Char} {j : Json}, readValue depth cs = some (j, rest) →
    ∃ white core, IsWhite white ∧ Derives (.value j) core ∧ cs = white ++ (core ++ rest)
  items : ∀ {cs rest : List Char} {items : List Json}, readItems depth cs = some (items, rest) →
    ∃ core, Derives (.elements items) core ∧ cs = core ++ ']' :: rest
  members : ∀ {cs rest : List Char} {ms : List (List Nat × Json)},
    readMembers depth cs = some (ms, rest) →
    ∃ core, Derives (.members ms) core ∧ cs = core ++ '}' :: rest

/-- An element is a value with all the white space up to what follows. -/
theorem Sound.element (h : Sound depth) {tail : List Char}
    (read : readValue depth cs = some (j, tail)) :
    ∃ core, Derives (.element j) core ∧ cs = core ++ skipSpace tail := by
  obtain ⟨front, core, hfront, derives, rfl⟩ := h.value read
  obtain ⟨back, hback, split⟩ := exists_skipSpace tail
  refine ⟨front ++ (core ++ back), .element hfront derives hback, ?_⟩
  rw [List.append_assoc, List.append_assoc, ← split]

/-- The text of a value behind its white space. -/
theorem Sound.body (h : Sound depth) (space : skipSpace cs = cs)
    (read : readValue (depth + 1) cs = some (j, rest)) :
    ∃ core, Derives (.value j) core ∧ cs = core ++ rest := by
  rw [readValue, space] at read
  split at read
  · cases read
    exact ⟨_, .null, rfl⟩
  · cases read
    exact ⟨_, .true, rfl⟩
  · cases read
    exact ⟨_, .false, rfl⟩
  · obtain ⟨⟨points, rest⟩, hstring, whole⟩ := Option.map_eq_some_iff.1 read
    cases whole
    obtain ⟨string, spelled, rfl⟩ := readString_eq_some_iff.1 hstring
    exact ⟨_, .string spelled, by simp⟩
  case h_5 tail =>
    obtain ⟨white, hwhite, split⟩ := exists_skipSpace tail
    split at read
    case h_1 close =>
      cases read
      rw [close] at split
      exact ⟨_, .emptyArray hwhite, by simp [split]⟩
    case h_2 =>
      rw [readItems_skipSpace] at read
      obtain ⟨⟨items, rest⟩, hitems, whole⟩ := Option.map_eq_some_iff.1 read
      cases whole
      obtain ⟨core, derives, rfl⟩ := h.items hitems
      exact ⟨_, .array derives, by simp⟩
  case h_6 tail =>
    obtain ⟨white, hwhite, split⟩ := exists_skipSpace tail
    split at read
    case h_1 close =>
      cases read
      rw [close] at split
      exact ⟨_, .emptyObject hwhite, by simp [split]⟩
    case h_2 =>
      rw [readMembers_skipSpace] at read
      obtain ⟨⟨ms, rest⟩, hmembers, whole⟩ := Option.map_eq_some_iff.1 read
      cases whole
      obtain ⟨core, derives, rfl⟩ := h.members hmembers
      exact ⟨_, .object derives, by simp⟩
  · obtain ⟨n, number, rfl, spelled, rfl⟩ := exists_numberText read
    exact ⟨_, .number spelled, rfl⟩

/-- The elements read one level deeper are an element, and behind a comma the elements that are read
at this depth. -/
theorem Sound.items_succ (h : Sound depth)
    (read : readItems (depth + 1) cs = some (items, rest)) :
    ∃ core, Derives (.elements items) core ∧ cs = core ++ ']' :: rest := by
  simp only [readItems, Option.bind_eq_bind, Option.bind_eq_some_iff] at read
  obtain ⟨⟨item, tail⟩, hitem, read⟩ := read
  obtain ⟨core, derives, rfl⟩ := h.element hitem
  dsimp only at read
  split at read
  case h_1 more comma =>
    simp only [Option.bind_eq_some_iff] at read
    obtain ⟨⟨items, rest⟩, hitems, whole⟩ := read
    cases whole
    obtain ⟨others, derives', rfl⟩ := h.items hitems
    exact ⟨_, .moreElements derives derives', by simp [comma]⟩
  case h_2 close =>
    cases read
    exact ⟨core, .lastElement derives, by rw [close]⟩
  case h_3 => cases read

/-- The members read one level deeper are a member, and behind a comma the members that are read at
this depth. -/
theorem Sound.members_succ (h : Sound depth)
    (read : readMembers (depth + 1) cs = some (ms, rest)) :
    ∃ core, Derives (.members ms) core ∧ cs = core ++ '}' :: rest := by
  obtain ⟨front, hfront, split⟩ := exists_skipSpace cs
  rw [readMembers] at read
  split at read
  case h_2 => cases read
  case h_1 string opens =>
    simp only [Option.bind_eq_bind, Option.bind_eq_some_iff] at read
    obtain ⟨⟨key, tail⟩, hkey, read⟩ := read
    obtain ⟨key', spelled, rfl⟩ := readString_eq_some_iff.1 hkey
    obtain ⟨back, hback, split'⟩ := exists_skipSpace tail
    dsimp only at read
    split at read
    case h_2 => cases read
    case h_1 value colon =>
      simp only [Option.bind_eq_some_iff] at read
      obtain ⟨⟨j, behind⟩, hvalue, read⟩ := read
      obtain ⟨core, derives, rfl⟩ := h.element hvalue
      have member := Derives.member hfront spelled hback derives
      rw [opens, split', colon] at split
      dsimp only at read
      split at read
      case h_1 more comma =>
        simp only [Option.bind_eq_some_iff] at read
        obtain ⟨⟨ms, rest⟩, hmembers, whole⟩ := read
        cases whole
        obtain ⟨others, derives', rfl⟩ := h.members hmembers
        exact ⟨_, .moreMembers member derives', by simp [split, comma]⟩
      case h_2 close =>
        cases read
        exact ⟨_, .lastMember member, by simp [split, close]⟩
      case h_3 => cases read

/-- **The reader is sound** at every depth. -/
theorem sound (depth : Nat) : Sound depth := by
  induction depth with
  | zero => exact ⟨nofun, nofun, nofun⟩
  | succ depth ih =>
    refine ⟨fun read => ?_, ih.items_succ, ih.members_succ⟩
    rename_i cs rest j
    -- the white space that the reader of values skips is none of the value's own
    rw [← readValue_skipSpace] at read
    obtain ⟨white, hwhite, split⟩ := exists_skipSpace cs
    obtain ⟨core, derives, body⟩ := ih.body (skipSpace_skipSpace cs) read
    exact ⟨white, core, hwhite, derives, by rw [← body, ← split]⟩

/-- **The reader accepts the grammar of JSON**, and answers with the value that a text denotes. -/
theorem parse_eq_some_iff : parse cs = some j ↔ Derives (.element j) cs := by
  simp only [parse, Option.bind_eq_bind, Option.bind_eq_some_iff]
  constructor
  · rintro ⟨⟨value, rest⟩, read, _, ends, whole⟩
    cases whole
    obtain ⟨core, derives, split⟩ := (sound _).element read
    have empty : skipSpace rest = [] := by simpa using ends
    rw [empty, List.append_nil] at split
    exact split ▸ derives
  · intro derives
    have closes : Closes [] := nofun
    obtain ⟨rest, read, ends⟩ := reads_of_derives derives (2 * cs.length + 1) [] (by omega) closes
    rw [List.append_nil] at read
    exact ⟨⟨j, rest⟩, read, by simp [ends]⟩

end Accumulator.Json
