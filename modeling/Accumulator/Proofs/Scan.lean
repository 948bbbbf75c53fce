import Mathlib.Data.List.Induction
import Mathlib.Data.List.TakeWhile
import Accumulator.Proofs.Listing

/-!
# An image read in one pass

An image is read line by line, each line up to its comment, cut at its separators. `Scan` reads it
in one pass instead, character by character: it knows the number of the line, whether it is in a
comment, and the token that it is in. Both find the same tokens with the same lines
(`numberedTokens_eq_scanned`), because a line feed is the one character that ends a comment and the
line, and what ends a token is never part of one. So a text is an image just in case all tokens of
the scan are words, and otherwise the first that is none is reported (`parse_law`).
-/

namespace Accumulator.Image

/-! ## The scan -/

/-- The state of a scan. -/
structure Scan where
  /-- The number of the line. -/
  line : Nat := 1
  inComment : Bool := false
  /-- The characters so far of the token that the scan is in; none between tokens. -/
  token : List Char := []
  /-- The tokens that have ended, each with its line. -/
  ended : List (Nat × List Char) := []

namespace Scan

/-- The token that the scan is in, with its line, if it is in one. -/
def pending (s : Scan) : List (Nat × List Char) :=
  if s.token = [] then [] else [(s.line, s.token)]

/-- Ends the token. -/
def endToken (s : Scan) : Scan :=
  { s with token := [], ended := s.ended ++ s.pending }

/-- One more character: a line feed ends the token, the comment and the line, a comment mark ends
the token and starts a comment, and a separator ends the token. In a comment all else is skipped,
outside it belongs to the token. -/
def step (s : Scan) (c : Char) : Scan :=
  if c = '\n' then { s.endToken with line := s.line + 1, inComment := false }
  else if s.inComment then s
  else if c = ';' ∨ c = '#' then { s.endToken with inComment := true }
  else if isBlank c ∨ c = ',' then s.endToken
  else { s with token := s.token ++ [c] }

end Scan

/-- The scan of a text. -/
def scan (text : List Char) : Scan :=
  text.foldl Scan.step {}

/-- The tokens that a scan of the text finds, each with its line. -/
def scanned (text : List Char) : List (Nat × List Char) :=
  (scan text).endToken.ended

variable {c : Char} {token line text : List Char} {n : Nat}

theorem isCommentMark_iff : isCommentMark c = true ↔ c = ';' ∨ c = '#' := by
  rw [isCommentMark, Bool.or_eq_true, beq_iff_eq, beq_iff_eq]

theorem isSeparator_iff : isSeparator c = true ↔ isBlank c = true ∨ c = ',' := by
  rw [isSeparator, Bool.or_eq_true, beq_iff_eq]

/-! ## Tokens with their lines -/

/-- The tokens of a text whose first line has the number `n`, each with its line. -/
def numberedFrom (n : Nat) (text : List Char) : List (Nat × List Char) :=
  ((text.splitOn '\n').zipIdx n).flatMap fun (line, n) => (tokens line).map (n, ·)

/-- A text of one line. -/
theorem numberedFrom_of_not_mem (h : '\n' ∉ line) (n : Nat) :
    numberedFrom n line = (tokens line).map (n, ·) := by
  rw [numberedFrom, List.splitOn_eq_singleton h]
  exact List.append_nil _

/-- The first line of a text and those behind it. -/
theorem numberedFrom_feed (h : '\n' ∉ line) (n : Nat) (text : List Char) :
    numberedFrom n (line ++ '\n' :: text) =
      (tokens line).map (n, ·) ++ numberedFrom (n + 1) text := by
  rw [numberedFrom, List.splitOn_append_cons_self_of_not_mem h, List.zipIdx_cons,
    List.flatMap_cons, numberedFrom]

/-- If characters in front of a line put tokens in front of its tokens, they do so in front of a
text that starts with the line. -/
theorem numberedFrom_append {front : List Char} {ts : List (List Char)} (h : '\n' ∉ front)
    (first : ∀ line lines, text.splitOn '\n' = line :: lines →
      tokens (front ++ line) = ts ++ tokens line) :
    numberedFrom n (front ++ text) = ts.map (n, ·) ++ numberedFrom n text := by
  obtain ⟨line, lines, rest⟩ := List.exists_cons_of_ne_nil (List.splitOn_ne_nil '\n' text)
  rw [numberedFrom, splitOn_append h, rest, List.modifyHead_cons, List.zipIdx_cons,
    List.flatMap_cons]
  dsimp only
  rw [first line lines rest, List.map_append, numberedFrom, rest, List.zipIdx_cons,
    List.flatMap_cons, List.append_assoc]

/-- Solid characters alone are one token. -/
theorem tokens_of_solid (nonempty : token ≠ []) (solid : ∀ c ∈ token, isSolid c = true) :
    tokens token = [token] := by
  have alone : tokens (token ++ []) = token :: tokens [] := tokens_append nonempty solid nofun
  rw [List.append_nil] at alone
  exact alone

/-- A token, or none, in front of a line that breaks it off. -/
theorem tokens_append_of_breaks (solid : ∀ c ∈ token, isSolid c = true) (h : Breaks line) :
    tokens (token ++ line) = tokens token ++ tokens line := by
  by_cases empty : token = []
  · subst empty
    rfl
  · rw [tokens_append empty solid h, tokens_of_solid empty solid]
    rfl

/-- No token goes on beyond its line. -/
theorem feed_not_mem (solid : ∀ c ∈ token, isSolid c = true) : '\n' ∉ token := by
  intro hmem
  cases solid '\n' hmem

/-- A token, or none, in front of a text that breaks it off. -/
theorem numberedFrom_token (solid : ∀ c ∈ token, isSolid c = true) (h : Breaks text) :
    numberedFrom n (token ++ text) = (tokens token).map (n, ·) ++ numberedFrom n text :=
  numberedFrom_append (feed_not_mem solid) fun _ _ first =>
    tokens_append_of_breaks solid (h.firstLine first)

/-- A separator within a line adds no token. -/
theorem numberedFrom_separator (h : isSeparator c = true) (other : c ≠ '\n') :
    numberedFrom n (c :: text) = numberedFrom n text := by
  have front : '\n' ∉ [c] := by simpa using Ne.symm other
  have passed (line : List Char) : tokens ([c] ++ line) = [] ++ tokens line :=
    tokens_of_isSeparator h line
  exact numberedFrom_append front fun line _ _ => passed line

/-- Of a comment nothing is left but the line feed that ends it. -/
theorem numberedFrom_comment (h : isCommentMark c = true) :
    numberedFrom n (c :: text) = numberedFrom n (text.dropWhile (· != '\n')) := by
  have body : '\n' ∉ text.takeWhile (· != '\n') := by
    intro hmem
    simpa using List.mem_takeWhile_imp hmem
  have comment : '\n' ∉ c :: text.takeWhile (· != '\n') := by
    refine List.not_mem_cons_of_ne_of_not_mem ?_ body
    rintro rfl
    cases h
  have none : tokens (c :: text.takeWhile (· != '\n')) = [] := tokens_of_isCommentMark h _
  conv_lhs => rw [← List.takeWhile_append_dropWhile (p := (· != '\n')) (l := text)]
  have head := List.head?_dropWhile_not (· != '\n') text
  cases rest : text.dropWhile (· != '\n') with
  | nil =>
    rw [List.append_nil, numberedFrom_of_not_mem comment, none]
    rfl
  | cons d rest' =>
    rw [rest] at head
    obtain rfl : d = '\n' := by simpa using head
    rw [← List.cons_append, numberedFrom_feed comment, none]
    have empty : '\n' ∉ ([] : List Char) := List.not_mem_nil
    exact (numberedFrom_feed empty n rest').symm

/-! ## The tokens of the scan -/

namespace Scan

variable {s : Scan}

/-- What every scan keeps: its token holds no separator and no comment mark, and in a comment it is
in no token. -/
structure Sound (s : Scan) : Prop where
  solid : ∀ c ∈ s.token, isSolid c = true
  quiet : s.inComment = true → s.token = []

/-- What of a text a scan takes up: the rest of a comment is passed over. -/
def left (s : Scan) (text : List Char) : List Char :=
  if s.inComment then text.dropWhile (· != '\n') else text

/-- What a scan finds in all if it goes on with the text: what it has found, and then the tokens
from its own token on. -/
def found (s : Scan) (text : List Char) : List (Nat × List Char) :=
  s.ended ++ numberedFrom s.line (s.token ++ s.left text)

/-- In a comment the scan takes up again at the end of the line. -/
theorem left_of_comment (h : s.inComment = true) (text : List Char) :
    s.left text = text.dropWhile (· != '\n') :=
  if_pos h

theorem left_of_open (h : ¬ s.inComment = true) (text : List Char) : s.left text = text :=
  if_neg h

/-- The token that a sound scan is in is what the tokens of a line say it is. -/
theorem Sound.pending_eq (h : s.Sound) : s.pending = (tokens s.token).map (s.line, ·) := by
  rw [pending]
  split
  case isTrue empty => rw [empty]; rfl
  case isFalse token =>
    rw [tokens_of_solid token h.solid]
    rfl

/-- A character keeps a scan sound: only solid characters are added to its token. -/
theorem Sound.step (h : s.Sound) (c : Char) : (s.step c).Sound := by
  rw [Scan.step]
  split
  case isTrue => exact ⟨nofun, fun _ => rfl⟩
  split
  case isTrue => exact h
  split
  case isTrue => exact ⟨nofun, fun _ => rfl⟩
  split
  case isTrue => exact ⟨nofun, fun _ => rfl⟩
  case isFalse open' mark separator =>
    refine ⟨fun d hd => ?_, fun comment => absurd comment open'⟩
    rcases List.mem_append.1 hd with hd | hd
    · exact h.solid d hd
    · rw [List.mem_singleton.1 hd, isSolid_eq_true_iff, ← Bool.not_eq_true, ← Bool.not_eq_true,
        isSeparator_iff, isCommentMark_iff]
      exact ⟨separator, mark⟩

/-- **One character at a time** a scan finds the tokens of the text. -/
theorem Sound.found_cons (h : s.Sound) (c : Char) (text : List Char) :
    s.found (c :: text) = (s.step c).found text := by
  -- what breaks the token off leaves it in front of the tokens of the rest
  have token (breaks : isSolid c = false) : numberedFrom s.line (s.token ++ c :: text) =
      s.pending ++ numberedFrom s.line (c :: text) := by
    rw [numberedFrom_token h.solid, h.pending_eq]
    rintro _ ⟨⟩
    exact breaks
  rw [Scan.step]
  split
  case isTrue feed =>
    subst feed
    have left : s.left ('\n' :: text) = '\n' :: text := ite_self _
    rw [found, left, numberedFrom_feed (feed_not_mem h.solid), ← h.pending_eq, ← List.append_assoc]
    rfl
  case isFalse other =>
  split
  case isTrue comment =>
    have skips : (c :: text).dropWhile (· != '\n') = text.dropWhile (· != '\n') :=
      List.dropWhile_cons_of_pos (by simpa using other)
    rw [found, found, left_of_comment comment, left_of_comment comment, skips]
  case isFalse open' =>
  rw [found, left_of_open open']
  split
  case isTrue mark =>
    have mark := isCommentMark_iff.2 mark
    rw [token (isSolid_eq_false_iff.2 (.inr mark)), numberedFrom_comment mark, ← List.append_assoc]
    rfl
  case isFalse =>
  split
  case isTrue separator =>
    have separator := isSeparator_iff.2 separator
    have ended : ¬ s.endToken.inComment = true := open'
    rw [token (isSolid_eq_false_iff.2 (.inl separator)), numberedFrom_separator separator other,
      ← List.append_assoc, found, left_of_open ended]
    rfl
  case isFalse =>
    rw [found, left_of_open (by exact open'), List.append_assoc]
    rfl

/-- At the end of the text the scan has found what it was going to find. -/
theorem Sound.endToken_foldl (h : s.Sound) (text : List Char) :
    (text.foldl Scan.step s).endToken.ended = s.found text := by
  induction text generalizing s with
  | nil =>
    have left : s.left [] = [] := ite_self _
    rw [found, left, List.append_nil, numberedFrom_of_not_mem (feed_not_mem h.solid),
      ← h.pending_eq]
    rfl
  | cons c text ih => rw [List.foldl_cons, ih (h.step c), h.found_cons]

end Scan

/-- A scan starts in no token and in no comment. -/
theorem sound_start : Scan.Sound {} := ⟨nofun, fun _ => rfl⟩

/-- **The lines and the scan have the same tokens**, each with the same line. -/
theorem numberedTokens_eq_scanned (text : List Char) : numberedTokens text = scanned text :=
  (sound_start.endToken_foldl text).symm

/-! ## Where the tokens stand -/

theorem scan_concat (text : List Char) (c : Char) : scan (text ++ [c]) = (scan text).step c :=
  List.foldl_concat _ _ _ _

/-- Every scan of a text is sound. -/
theorem sound_scan (text : List Char) : (scan text).Sound := by
  induction text using List.reverseRecOn with
  | nil => exact sound_start
  | append_singleton text c ih =>
    rw [scan_concat]
    exact ih.step c

/-- A scan counts the line feeds. -/
theorem line_scan (text : List Char) : (scan text).line = 1 + text.count '\n' := by
  induction text using List.reverseRecOn with
  | nil => rfl
  | append_singleton text c ih =>
    rw [scan_concat, List.count_append, ← Nat.add_assoc, ← ih, Scan.step]
    split
    case isTrue feed => rw [feed, List.count_singleton_self]
    case isFalse other =>
      rw [List.count_singleton, beq_false_of_ne other]
      split
      · rfl
      split
      · rfl
      split <;> rfl

/-- The token stands in the text at a place where the scan has found `good` and is in no comment and
in no token, and its line is one more than there are line feeds in front of it. -/
def Stands (text : List Char) (good : List (Nat × List Char)) (line : Nat) (token : List Char) :
    Prop :=
  ∃ before after, text = before ++ token ++ after ∧
    scan before = { line := line, ended := good } ∧ line = 1 + before.count '\n'

variable {good rest : List (Nat × List Char)} {before : List Char} {num : Nat}

/-- A token stands where it stands whatever comes behind the text. -/
theorem Stands.append (h : Stands text good num token) (tail : List Char) :
    Stands (text ++ tail) good num token := by
  obtain ⟨before, after, rfl, start, line⟩ := h
  exact ⟨before, after ++ tail, List.append_assoc _ _ _, start, line⟩

/-- All tokens of a scan stand in the text, the one that it is in last. -/
structure Places (text : List Char) : Prop where
  token : (scan text).token ≠ [] → ∃ before, text = before ++ (scan text).token ∧
    scan before = { line := (scan text).line, ended := (scan text).ended }
  ended : ∀ good num token rest, (scan text).ended = good ++ (num, token) :: rest →
    Stands text good num token

/-- A token that ends stands where it was begun. -/
theorem Places.endToken (h : Places text)
    (split : (scan text).endToken.ended = good ++ (num, token) :: rest) :
    Stands text good num token := by
  rw [Scan.endToken, Scan.pending] at split
  dsimp only at split
  by_cases between : (scan text).token = []
  · rw [if_pos between, List.append_nil] at split
    exact h.ended _ _ _ _ split
  -- the token in question is the one that ends here, or it ended before
  rw [if_neg between] at split
  obtain rfl | ⟨rest, last, rfl⟩ := List.eq_nil_or_concat rest
  · obtain ⟨rfl, same⟩ := List.append_inj' split rfl
    cases same
    obtain ⟨before, whole, start⟩ := h.token between
    refine ⟨before, [], by rw [List.append_nil, ← whole], start, ?_⟩
    rw [← line_scan, start]
  · rw [List.concat_eq_append, ← List.cons_append, ← List.append_assoc] at split
    exact h.ended _ _ _ _ (List.append_inj' split rfl).1

/-- A character behind which the scan is in no token. -/
theorem Places.between (h : Places text) (token : (scan (text ++ [c])).token = [])
    (ended : (scan (text ++ [c])).ended = (scan text).endToken.ended) : Places (text ++ [c]) := by
  refine ⟨fun inside => absurd token inside, fun good num token rest split => ?_⟩
  rw [ended] at split
  exact (h.endToken split).append [c]

/-- A character that extends the token. -/
theorem Places.extend (h : Places text) (open' : ¬ (scan text).inComment = true)
    (step : scan (text ++ [c]) = { scan text with token := (scan text).token ++ [c] }) :
    Places (text ++ [c]) := by
  refine ⟨fun _ => ?_, fun good num token rest split => ?_⟩
  · rw [step]
    by_cases fresh : (scan text).token = []
    · -- the token begins here, behind a scan that is in no token
      refine ⟨text, by rw [fresh, List.nil_append], ?_⟩
      rw [Bool.not_eq_true] at open'
      rw [← open', ← fresh]
    · obtain ⟨before, whole, start⟩ := h.token fresh
      exact ⟨before, by rw [← List.append_assoc, ← whole], start⟩
  · rw [step] at split
    exact (h.ended _ _ _ _ split).append [c]

/-- **The tokens of a scan stand in the text**, each on its line. -/
theorem places (text : List Char) : Places text := by
  induction text using List.reverseRecOn with
  | nil => exact ⟨fun inside => absurd rfl inside, by rintro _ _ _ _ h; simp [scan] at h⟩
  | append_singleton text c ih =>
    have step := scan_concat text c
    rw [Scan.step] at step
    -- a line feed, a character in a comment, a comment mark, a separator, or part of a token
    split at step
    case isTrue => exact ih.between (by rw [step]; rfl) (by rw [step])
    case isFalse =>
    split at step
    case isTrue comment =>
      have quiet := (sound_scan text).quiet comment
      refine ih.between (by rw [step, quiet]) ?_
      rw [step, Scan.endToken, Scan.pending, if_pos quiet, List.append_nil]
    case isFalse open' =>
    split at step
    case isTrue => exact ih.between (by rw [step]; rfl) (by rw [step])
    case isFalse =>
    split at step
    case isTrue => exact ih.between (by rw [step]; rfl) (by rw [step])
    case isFalse => exact ih.extend open' step

/-- In a comment any character but a line feed is passed over. -/
theorem scanned_of_inComment (comment : (scan before).inComment = true) (other : c ≠ '\n')
    (after : List Char) : scanned (before ++ c :: after) = scanned (before ++ after) := by
  have stays : (scan before).step c = scan before := by
    rw [Scan.step, if_neg other, if_pos comment]
  rw [scanned, scanned, scan, List.foldl_append, List.foldl_cons, ← scan, stays, scan, scan,
    List.foldl_append]

/-! ## The words of the tokens -/

section
variable {ε α β : Type} {f : α → Except ε β} {e : ε} {x : α} {y : β} {xs : List α} {ys : List β}

/-- A traversal whose first step succeeds goes on with the others. -/
theorem mapM_cons_of_ok (h : f x = .ok y) :
    (x :: xs).mapM f = (xs.mapM f).map (y :: ·) := by
  rw [List.mapM_cons, h]
  cases xs.mapM f <;> rfl

/-- A traversal ends with its first error. -/
theorem mapM_cons_of_error (h : f x = .error e) : (x :: xs).mapM f = .error e := by
  rw [List.mapM_cons, h]
  rfl

/-- A traversal succeeds if it does so everywhere. -/
theorem mapM_eq_ok_iff :
    xs.mapM f = .ok ys ↔ List.Forall₂ (fun x y => f x = .ok y) xs ys := by
  induction xs generalizing ys with
  | nil => cases ys <;> simp [pure, Except.pure]
  | cons x xs ih =>
    cases hx : f x with
    | error e => rw [mapM_cons_of_error hx]; simp [List.forall₂_cons_left_iff, hx]
    | ok y =>
      rw [mapM_cons_of_ok hx, List.forall₂_cons_left_iff]
      cases hxs : xs.mapM f with
      | error e => simp [Except.map, ← ih, hxs]
      | ok zs => simp [Except.map, ← ih, hxs, hx, eq_comm]

/-- A traversal succeeds with something if every step does. -/
theorem exists_mapM_eq_ok_iff : (∃ ys, xs.mapM f = .ok ys) ↔ ∀ x ∈ xs, ∃ y, f x = .ok y := by
  induction xs with
  | nil => simp [pure, Except.pure]
  | cons x xs ih =>
    rw [List.forall_mem_cons, ← ih]
    cases hx : f x with
    | error e => simp [mapM_cons_of_error hx]
    | ok y =>
      rw [mapM_cons_of_ok hx]
      cases xs.mapM f <;> simp [Except.map]

/-- A traversal fails as it does at the first place where it fails. -/
theorem mapM_eq_error_iff : xs.mapM f = .error e ↔ ∃ good x rest, xs = good ++ x :: rest ∧
    (∀ z ∈ good, ∃ y, f z = .ok y) ∧ f x = .error e := by
  induction xs with
  | nil => simp [pure, Except.pure]
  | cons x xs ih =>
    constructor
    · intro h
      cases hx : f x with
      | error e' =>
        rw [mapM_cons_of_error hx] at h
        cases h
        exact ⟨[], x, xs, rfl, nofun, hx⟩
      | ok y =>
        rw [mapM_cons_of_ok hx] at h
        cases hxs : xs.mapM f with
        | ok ys => rw [hxs] at h; cases h
        | error e' =>
          rw [hxs] at h
          cases h
          obtain ⟨good, z, rest, rfl, hgood, hz⟩ := ih.1 hxs
          exact ⟨x :: good, z, rest, rfl, List.forall_mem_cons.2 ⟨⟨y, hx⟩, hgood⟩, hz⟩
    · rintro ⟨good, z, rest, whole, hgood, hz⟩
      cases good with
      | nil =>
        cases whole
        exact mapM_cons_of_error hz
      | cons x' good =>
        cases whole
        obtain ⟨⟨y, hy⟩, hgood⟩ := List.forall_mem_cons.1 hgood
        rw [mapM_cons_of_ok hy, ih.2 ⟨good, z, rest, rfl, hgood, hz⟩]
        rfl

end

/-- The word of a token with its line, or the error that blames the token. -/
def judge (t : Nat × List Char) : Except ImageError UInt16 :=
  match word? t.2 with
  | some word => .ok word
  | none => .error (.invalidWord t.1 (String.ofList t.2))

/-- A token is judged to be the word that it denotes. -/
theorem judge_eq_ok_iff {t : Nat × List Char} {w : UInt16} : judge t = .ok w ↔ Denotes t.2 w := by
  rw [← word?_eq_some_iff, judge]
  cases word? t.2 <;> simp

/-- A token that denotes no word is blamed with its line and its text. -/
theorem judge_eq_error_iff {t : Nat × List Char} {e : ImageError} :
    judge t = .error e ↔ (¬ ∃ w, Denotes t.2 w) ∧ e = .invalidWord t.1 (String.ofList t.2) := by
  simp only [← word?_eq_some_iff, judge]
  cases word? t.2 <;> simp [eq_comm]

/-- An image is the words of the scan's tokens. -/
theorem parse_eq (text : String) : parse text = (scanned text.toList).mapM judge := by
  rw [← numberedTokens_eq_scanned]
  rfl

/-- **An image is read in one pass.** A text is an image just in case every token that the scan
finds is one to four digits in base 16 behind one radix mark or none, and its words are their
numbers in order. Otherwise the first token that is nothing of the kind is reported as it stands in
the text, with its line. The line of a token is one more than there are line feeds in front of it.
In a comment any character but a line feed, a carriage return and the other line separators
included, makes no difference. -/
theorem parse_law (text : String) :
    (∀ words, parse text = .ok words ↔
      List.Forall₂ (fun t w => Denotes t.2 w) (scanned text.toList) words) ∧
    ((∃ words, parse text = .ok words) ↔ ∀ t ∈ scanned text.toList, IsWord t.2) ∧
    (∀ e, parse text = .error e ↔ ∃ good line token rest,
      scanned text.toList = good ++ (line, token) :: rest ∧
      (∀ t ∈ good, IsWord t.2) ∧ ¬ IsWord token ∧
      e = .invalidWord line (String.ofList token)) ∧
    (∀ good line token rest, scanned text.toList = good ++ (line, token) :: rest →
      Stands text.toList good line token) ∧
    ∀ before c after, text.toList = before ++ c :: after → (scan before).inComment = true →
      c ≠ '\n' → parse text = parse (String.ofList (before ++ after)) := by
  refine ⟨fun words => ?_, ?_, fun e => ?_, fun _ _ _ _ => (places _).endToken,
    fun before c after whole comment other => ?_⟩
  · simp only [parse_eq, mapM_eq_ok_iff, judge_eq_ok_iff]
  · simp only [parse_eq, exists_mapM_eq_ok_iff, judge_eq_ok_iff, isWord_iff]
  · simp only [parse_eq, mapM_eq_error_iff, judge_eq_ok_iff, judge_eq_error_iff, Prod.exists,
      isWord_iff]
  · rw [parse_eq, parse_eq, whole, scanned_of_inComment comment other, String.toList_ofList]

/-- A comment with a carriage return in it, and a token on the second line that is no word. -/
theorem parse_law_commented :
    let text := "1080 ;a\r0x1\n 12G45,7"
    let good := [(1, ['1', '0', '8', '0'])]
    let token := ['1', '2', 'G', '4', '5']
    (scanned text.toList = good ++ (2, token) :: [(2, ['7'])] ∧ (∀ t ∈ good, IsWord t.2) ∧
      ¬ IsWord token ∧ parse text = .error (.invalidWord 2 "12G45")) ∧
    Stands text.toList good 2 token ∧
    (scan "1080 ;a".toList).inComment = true ∧ '\r' ≠ '\n' ∧
      parse text = parse "1080 ;a0x1\n 12G45,7" := by
  have tokens : scanned "1080 ;a\r0x1\n 12G45,7".toList =
      [(1, ['1', '0', '8', '0'])] ++ (2, ['1', '2', 'G', '4', '5']) :: [(2, ['7'])] := by decide
  have word : ∀ t ∈ [(1, ['1', '0', '8', '0'])], IsWord t.2 := by
    rw [List.forall_mem_singleton]
    exact ⟨[], by decide, _, rfl, by decide, by decide, List.all_iff_forall_prop.1 (by decide)⟩
  have noWord : ¬ IsWord ['1', '2', 'G', '4', '5'] := by
    rw [isWord_iff]
    simp only [← word?_eq_some_iff]
    exact nofun
  have comment : (scan "1080 ;a".toList).inComment = true := by decide
  obtain ⟨-, -, error, stands, passes⟩ := parse_law "1080 ;a\r0x1\n 12G45,7"
  exact ⟨⟨tokens, word, noWord, (error _).2 ⟨_, _, _, _, tokens, word, noWord, rfl⟩⟩,
    stands _ _ _ _ tokens, comment, by decide,
    passes "1080 ;a".toList '\r' "0x1\n 12G45,7".toList rfl comment (by decide)⟩

end Accumulator.Image
