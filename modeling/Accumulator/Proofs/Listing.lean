import Mathlib.Data.List.Forall2
import Accumulator.Proofs.Token

/-!
# Listings

A listing is a text that lays out tokens in order. `Layout` says how that may be done: blanks and
commas stand in front of a token and behind it in any number, a comment runs up to a line feed or
to the end of the text, and a token ends only where one of these begins or the text does. A listing
is read line by line, so a token is found again because no line feed stands in it, and a comment is
dropped because nothing but a line feed ends it (`allTokens_of_layout`). A listing of spelled words
is parsed into the words (`Listing.parse_eq`).
-/

namespace Accumulator.Image

/-- The characters that tokens are made of: those that neither separate nor start a comment. -/
def isSolid (c : Char) : Bool :=
  !isSeparator c && !isCommentMark c

/-- The text is at its end, or goes on with a character that is part of no token. -/
def Breaks (text : List Char) : Prop :=
  ∀ c ∈ text.head?, isSolid c = false

/-- The text lays out the tokens in order. -/
inductive Layout : List (List Char) → List Char → Prop
  | nil : Layout [] []
  /-- A comment up to the end of the text. -/
  | lastComment {mark : Char} {body : List Char} :
      isCommentMark mark = true → '\n' ∉ body → Layout [] (mark :: body)
  /-- A comment up to a line feed. -/
  | comment {mark : Char} {body text : List Char} {tokens : List (List Char)} :
      isCommentMark mark = true → '\n' ∉ body → Layout tokens text →
      Layout tokens (mark :: body ++ '\n' :: text)
  /-- A blank or a comma; a line feed is a blank. -/
  | separator {c : Char} {text : List Char} {tokens : List (List Char)} :
      isSeparator c = true → Layout tokens text → Layout tokens (c :: text)
  | token {token text : List Char} {tokens : List (List Char)} :
      token ≠ [] → (∀ c ∈ token, isSolid c = true) → Breaks text → Layout tokens text →
      Layout (token :: tokens) (token ++ text)

variable {c : Char} {token line text : List Char} {ts : List (List Char)}

/-- A comment mark separates nothing. -/
theorem isSeparator_of_isCommentMark (h : isCommentMark c = true) : isSeparator c = false := by
  rw [isCommentMark, Bool.or_eq_true, beq_iff_eq, beq_iff_eq] at h
  rcases h with rfl | rfl <;> rfl

/-- Nor does a separator start a comment. -/
theorem isCommentMark_of_isSeparator (h : isSeparator c = true) : isCommentMark c = false := by
  by_contra mark
  rw [isSeparator_of_isCommentMark (Bool.eq_true_of_not_eq_false mark)] at h
  cases h

theorem isSolid_eq_true_iff :
    isSolid c = true ↔ isSeparator c = false ∧ isCommentMark c = false := by
  rw [isSolid, Bool.and_eq_true, Bool.not_eq_true', Bool.not_eq_true']

theorem isSolid_eq_false_iff :
    isSolid c = false ↔ isSeparator c = true ∨ isCommentMark c = true := by
  rw [isSolid, Bool.and_eq_false_iff, Bool.not_eq_false', Bool.not_eq_false']

/-! ## The tokens of a line -/

/-- A separator in front of a line adds no token. -/
theorem tokens_of_isSeparator (h : isSeparator c = true) (line : List Char) :
    tokens (c :: line) = tokens line := by
  rw [tokens, List.takeWhile_cons_of_pos (by rw [isCommentMark_of_isSeparator h]; rfl),
    List.splitOnP_cons_eq_if_modifyHead, if_pos h]
  rfl

/-- A line that starts with a comment has no tokens. -/
theorem tokens_of_isCommentMark (h : isCommentMark c = true) (line : List Char) :
    tokens (c :: line) = [] := by
  rw [tokens, List.takeWhile_cons_of_neg (by rw [h]; decide)]
  rfl

/-- Solid characters in front of a line that breaks them off are its first token. -/
theorem tokens_append (nonempty : token ≠ [])
    (solid : ∀ c ∈ token, isSolid c = true) (h : Breaks line) :
    tokens (token ++ line) = token :: tokens line := by
  have whole : (token ++ line).takeWhile (!isCommentMark ·) =
      token ++ line.takeWhile (!isCommentMark ·) :=
    List.takeWhile_append_of_pos fun c hc => by rw [(isSolid_eq_true_iff.1 (solid c hc)).2]; rfl
  have alone : ∀ c ∈ token, isSeparator c = false :=
    fun c hc => (isSolid_eq_true_iff.1 (solid c hc)).1
  rw [tokens, tokens, whole]
  cases line with
  | nil =>
    rw [List.takeWhile_nil, List.append_nil, List.splitOnP_eq_singleton alone]
    simp [nonempty]
  | cons c rest =>
    rcases isSolid_eq_false_iff.1 (h c rfl) with separator | mark
    · rw [List.takeWhile_cons_of_pos (by rw [isCommentMark_of_isSeparator separator]; rfl),
        List.splitOnP_append_cons_of_forall_mem alone c separator,
        List.splitOnP_cons_eq_if_modifyHead, if_pos separator]
      simp [nonempty]
    · rw [List.takeWhile_cons_of_neg (by rw [mark]; decide), List.append_nil,
        List.splitOnP_eq_singleton alone]
      simp [nonempty]

/-! ## The tokens of a text -/

/-- The tokens of all lines of a text. -/
def allTokens (text : List Char) : List (List Char) :=
  (text.splitOn '\n').flatMap tokens

/-- Without their numbers the tokens of the lines are all tokens in order. -/
theorem map_snd_numberedTokens (text : List Char) :
    (numberedTokens text).map Prod.snd = allTokens text := by
  rw [numberedTokens, allTokens]
  generalize text.splitOn '\n' = lines
  generalize 1 = n
  induction lines generalizing n with
  | nil => rfl
  | cons line lines ih =>
    simp only [List.zipIdx_cons, List.flatMap_cons, List.map_append, List.map_map, ih]
    exact congrArg (· ++ lines.flatMap tokens) (List.map_id (tokens line))

/-- Characters in front of a text, none of them a line feed, belong to its first line. -/
theorem splitOn_append {front : List Char} (h : '\n' ∉ front) (text : List Char) :
    (front ++ text).splitOn '\n' = (text.splitOn '\n').modifyHead (front ++ ·) := by
  induction front with
  | nil => exact (congrFun List.modifyHead_id _).symm
  | cons c front ih =>
    obtain ⟨hc, hfront⟩ := List.ne_and_not_mem_of_not_mem_cons h
    have other : ¬ (c == '\n') = true := by simpa using Ne.symm hc
    rw [List.cons_append, List.splitOn_cons_eq_if_modifyHead, ih hfront, if_neg other,
      List.modifyHead_modifyHead]
    rfl

/-- The first line of a text breaks off a token where the text does. -/
theorem Breaks.firstLine {lines : List (List Char)} (h : Breaks text)
    (first : text.splitOn '\n' = line :: lines) : Breaks line := by
  cases text with
  | nil =>
    rw [List.splitOn_nil] at first
    cases first
    exact h
  | cons c text =>
    rw [List.splitOn_cons_eq_if_modifyHead] at first
    split at first
    · cases first
      nofun
    · obtain ⟨line', lines', rest⟩ := List.exists_cons_of_ne_nil (List.splitOn_ne_nil '\n' text)
      rw [rest] at first
      cases first
      exact h

/-- If characters in front of a line put tokens in front of its tokens, they do so in front of a
text that starts with the line. -/
theorem allTokens_append (front : List Char) (ts : List (List Char)) (h : '\n' ∉ front)
    (first : ∀ line lines, text.splitOn '\n' = line :: lines →
      tokens (front ++ line) = ts ++ tokens line) :
    allTokens (front ++ text) = ts ++ allTokens text := by
  obtain ⟨line, lines, rest⟩ := List.exists_cons_of_ne_nil (List.splitOn_ne_nil '\n' text)
  rw [allTokens, splitOn_append h, rest, List.modifyHead_cons, List.flatMap_cons,
    first line lines rest, allTokens, rest, List.flatMap_cons, List.append_assoc]

/-- A separator in front of a text, a line feed included, adds no token. -/
theorem allTokens_of_isSeparator (h : isSeparator c = true) (text : List Char) :
    allTokens (c :: text) = allTokens text := by
  by_cases feed : c = '\n'
  · subst feed
    rw [allTokens, List.splitOn_cons_eq_if_modifyHead, if_pos (by rfl), List.flatMap_cons]
    rfl
  · refine allTokens_append [c] [] ?_ fun line _ _ => ?_
    · simpa using Ne.symm feed
    · exact tokens_of_isSeparator h line

/-- A token in front of a text that breaks it off. -/
theorem allTokens_token (nonempty : token ≠ []) (solid : ∀ c ∈ token, isSolid c = true)
    (h : Breaks text) : allTokens (token ++ text) = token :: allTokens text := by
  refine allTokens_append token [token] (fun hmem => ?_) fun line lines first => ?_
  · cases solid '\n' hmem
  · exact tokens_append nonempty solid (h.firstLine first)

/-- **The tokens of a listing are those it lays out.** -/
theorem allTokens_of_layout (h : Layout ts text) : allTokens text = ts := by
  have ne_feed {c : Char} (mark : isCommentMark c = true) : '\n' ≠ c := by
    rintro rfl
    cases mark
  induction h with
  | nil => rfl
  | @lastComment mark body hmark hbody =>
    have whole : '\n' ∉ mark :: body := List.not_mem_cons_of_ne_of_not_mem (ne_feed hmark) hbody
    rw [allTokens, List.splitOn_eq_singleton whole, List.flatMap_cons,
      tokens_of_isCommentMark hmark]
    rfl
  | @comment mark body text ts hmark hbody _ ih =>
    have whole : '\n' ∉ mark :: body := List.not_mem_cons_of_ne_of_not_mem (ne_feed hmark) hbody
    rw [allTokens, List.splitOn_append_cons_self_of_not_mem whole, List.flatMap_cons,
      tokens_of_isCommentMark hmark, List.nil_append]
    exact ih
  | separator hc _ ih =>
    rw [allTokens_of_isSeparator hc, ih]
  | token nonempty solid hbreak _ ih =>
    rw [allTokens_token nonempty solid hbreak, ih]

/-! ## Listings of words -/

/-- The text is a listing of the words: it lays out tokens that spell them in order. -/
def Listing (words : List UInt16) (text : String) : Prop :=
  ∃ tokens, List.Forall₂ Spells words tokens ∧ Layout tokens text.toList

/-- **A listing is parsed into its words.** -/
theorem Listing.parse_eq {words : List UInt16} {text : String} (h : Listing words text) :
    parse text = .ok words := by
  obtain ⟨ts, spelled, layout⟩ := h
  have numbered : List.Forall₂ Spells words ((numberedTokens text.toList).map Prod.snd) := by
    rw [map_snd_numberedTokens, allTokens_of_layout layout]
    exact spelled
  rw [parse]
  clear layout spelled
  generalize numberedTokens text.toList = pairs at numbered
  induction pairs generalizing words with
  | nil =>
    cases numbered
    rfl
  | cons pair pairs ih =>
    obtain ⟨n, token⟩ := pair
    cases numbered with
    | cons spells rest =>
      rw [List.mapM_cons, ih rest]
      simp only [spells.word?_eq]
      rfl

end Accumulator.Image
