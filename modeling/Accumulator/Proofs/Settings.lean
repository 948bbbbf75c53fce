import Accumulator.Config.Reader
import Accumulator.Proofs.JsonToken
import Accumulator.Proofs.Listing

/-!
# Settings as JSON values

A setting is the value of a field, in a section that is itself the value of a field. `Json.change`
changes the value of one field of a record, wherever the record has it, and the fields that are
read off afterwards are those from before with that one value changed (`fields_change`). So two
values that are the same but for one setting stand for settings that are the same but for it
(`ofJson_of_blankOrigin`, `ofJson_of_blankMaxSteps`).

A value that stands for settings is a record, so a text of it starts with a bracket or a brace.
Neither can be part of a word, which is why no text is both settings and an image
(`parse_error_of_ofJson`).
-/

namespace Accumulator

namespace Json

variable {names : List String} {name n : String} {f : Json → Json} {j j' : Json}
  {record record' : List (String × Json)} {α : Type} {default : α} {read : Json → Option α}

/-! ## Changing a field -/

/-- A field of a record, its value changed if it has the name. -/
def changeField (name : String) (f : Json → Json) (field : String × Json) : String × Json :=
  if field.1 = name then (field.1, f field.2) else field

/-- A member of an object with the text of its key, if the key denotes one. -/
def named? (member : List Nat × Json) : Option (String × Json) := do
  return (String.ofList (← text? member.1), member.2)

/-- A member of an object, its value changed if its key denotes the name. -/
def changeMember (name : String) (f : Json → Json) (member : List Nat × Json) : List Nat × Json :=
  if (text? member.1).map String.ofList = some name then (member.1, f member.2) else member

/-- A record with the value of one field changed. -/
def change (names : List String) (name : String) (f : Json → Json) : Json → Json
  | .object members => .object (members.map (changeMember name f))
  | .array items => .array (items.modify (names.idxOf name) f)
  | j => j

@[simp] theorem changeField_fst (name : String) (f : Json → Json) (field : String × Json) :
    (changeField name f field).1 = field.1 := by
  rw [changeField]
  split <;> rfl

/-- A guard in front of an answer is a condition on it. -/
theorem guard_bind_some (p : Prop) [Decidable p] (a : α) :
    (guard p >>= fun _ => some a) = if p then some a else none := by
  rw [guard]
  split <;> rfl

/-- The fields of an object: its named members, as far as they are known and if none comes twice. -/
theorem fields_object (members : List (List Nat × Json)) :
    (object members).fields names = (members.mapM named?).bind fun named =>
      if ((named.filter (names.contains ·.1)).map (·.1)).Nodup then
        some (named.filter (names.contains ·.1)) else none := by
  have whole : (object members).fields names = (members.mapM named?).bind fun named =>
      guard ((named.filter (names.contains ·.1)).map (·.1)).Nodup >>= fun _ =>
        some (named.filter (names.contains ·.1)) := rfl
  simp only [whole, guard_bind_some]

/-- The fields of a list: its items with the names in order, if there are not too many. -/
theorem fields_array (items : List Json) : (array items).fields names =
    if items.length ≤ names.length then some (names.zip items) else none :=
  guard_bind_some _ _

/-- Fields are looked up as before, but for the value of the one that was changed. -/
theorem lookup_map_changeField (n : String) : (record.map (changeField name f)).lookup n =
    if n = name then (record.lookup n).map f else record.lookup n := by
  induction record with
  | nil => split <;> rfl
  | cons field record ih =>
    obtain ⟨m, value⟩ := field
    rw [List.map_cons, changeField]
    by_cases found : n = m
    · subst found
      split <;> simp
    · have passed : (n == m) = false := beq_false_of_ne found
      split <;> simp [List.lookup_cons, passed, ih]

/-- The fields of a list of values with the one changed whose place is that of the name. -/
theorem zip_modify_idxOf (distinct : names.Nodup) (items : List Json) :
    names.zip (items.modify (names.idxOf name) f) =
      (names.zip items).map (changeField name f) := by
  apply List.ext_getElem
  · simp
  · intro i hi _
    have inside : i < names.length := by
      rw [List.length_zip] at hi
      omega
    simp only [List.getElem_zip, List.getElem_map, List.getElem_modify, changeField]
    by_cases here : names.idxOf name = i
    · subst here
      rw [if_pos rfl, if_pos (List.getElem_idxOf inside)]
    · have other : names[i] ≠ name := by
        rintro rfl
        exact here (distinct.idxOf_getElem i inside)
      rw [if_neg here, if_neg other]

/-- A member whose value was changed is named as before. -/
theorem named?_changeMember (member : List Nat × Json) :
    named? (changeMember name f member) = (named? member).map (changeField name f) := by
  obtain ⟨key, value⟩ := member
  rw [changeMember, named?]
  cases points : text? key with
  | none => simp [named?, points]
  | some cs =>
    by_cases here : String.ofList cs = name <;> simp [named?, points, here, changeField]

/-- Changed members are named as they were before. -/
theorem mapM_named?_changeMember (members : List (List Nat × Json)) :
    (members.map (changeMember name f)).mapM named? =
      (members.mapM named?).map (List.map (changeField name f)) := by
  induction members with
  | nil => rfl
  | cons member members ih =>
    rw [List.map_cons, List.mapM_cons, List.mapM_cons, ih, named?_changeMember]
    cases named? member <;> cases members.mapM named? <;> rfl

/-- **The fields of a changed record** are its fields with the one changed. -/
theorem fields_change (distinct : names.Nodup) (name : String) (f : Json → Json) (j : Json) :
    (change names name f j).fields names =
      (j.fields names).map (List.map (changeField name f)) := by
  cases j with
  | null | bool _ | number _ | string _ => rfl
  | array items =>
    rw [change, fields_array, fields_array, List.length_modify, zip_modify_idxOf distinct]
    split <;> rfl
  | object members =>
    rw [change, fields_object, fields_object, mapM_named?_changeMember]
    cases members.mapM named? with
    | none => rfl
    | some named =>
      have known : (named.map (changeField name f)).filter (names.contains ·.1) =
          (named.filter (names.contains ·.1)).map (changeField name f) := by
        rw [List.filter_map]
        simp [Function.comp_def]
      have keys : ((named.filter (names.contains ·.1)).map (changeField name f)).map (·.1) =
          (named.filter (names.contains ·.1)).map (·.1) := by
        simp [Function.comp_def]
      rw [Option.map_some, Option.bind_some, Option.bind_some, known, keys]
      split <;> rfl

/-- Records that are the same after a change of one field are the same in all other fields. -/
theorem lookup_of_change_eq (distinct : names.Nodup)
    (same : change names name f j = change names name f j')
    (h : j.fields names = some record) (h' : j'.fields names = some record') :
    (∀ n ≠ name, record.lookup n = record'.lookup n) ∧
    (record.lookup name).map f = (record'.lookup name).map f := by
  have changed := congrArg (fields names) same
  rw [fields_change distinct, fields_change distinct, h, h'] at changed
  have lookup (n : String) := congrArg (List.lookup n) (Option.some.inj changed)
  simp only [lookup_map_changeField] at lookup
  refine ⟨fun n other => ?_, ?_⟩
  · simpa only [if_neg other] using lookup n
  · simpa only [if_pos] using lookup name

/-- A field depends on what its name is looked up as, and on nothing else in the record. -/
theorem field_congr (h : record.lookup n = record'.lookup n) :
    field record n default read = field record' n default read := by
  rw [field, field, h]

/-- A field is read as it is given, or as its default if it is missing. -/
theorem field_eq {v : Option α} {encode : α → Json} (h : record.lookup name = v.map encode)
    (decode : ∀ a, read (encode a) = some a) :
    field record name default read = some (v.getD default) := by
  rw [field, h]
  cases v with
  | none => rfl
  | some a => exact decode a

/-- A section is read as it is given and, if it is missing, as one without fields: the default of
the section is what its fields have by default. -/
theorem section_eq (empty : read (.object []) = some default) (record : List (String × Json))
    (n : String) :
    field record n default read = read ((record.lookup n).getD (.object [])) := by
  rw [field]
  cases record.lookup n with
  | none => exact empty.symm
  | some j => rfl

/-- Sections that are the same after a change of one field, if they are given at all, are the same
in all other fields. -/
theorem lookup_of_section_eq {top top' : List (String × Json)} (distinct : names.Nodup)
    (same : (top.lookup n).map (change names name f) = (top'.lookup n).map (change names name f))
    (h : ((top.lookup n).getD (.object [])).fields names = some record)
    (h' : ((top'.lookup n).getD (.object [])).fields names = some record') :
    ∀ m ≠ name, record.lookup m = record'.lookup m := by
  have whole (o : Option Json) : change names name f (o.getD (.object [])) =
      (o.map (change names name f)).getD (.object []) := by
    cases o <;> rfl
  refine (lookup_of_change_eq (f := f) distinct ?_ h h').1
  rw [whole, whole, same]

end Json

namespace Config

open Json (field fields)

variable {j j' : Json} {c c' : Config}

/-! ## Settings but for one -/

/-- A value for settings with the origin blanked out. -/
def blankOrigin : Json → Json :=
  Json.change ["general", "image"] "image" (Json.change ["origin"] "origin" fun _ => .null)

/-- A value for settings with the budget blanked out. -/
def blankMaxSteps : Json → Json :=
  Json.change ["general", "image"] "general"
    (Json.change ["trace_instructions", "max_steps"] "max_steps" fun _ => .null)

/-- The general settings are read field by field. -/
theorem general_eq_some_iff {g : GeneralConfig} : GeneralConfig.ofJson j = some g ↔
    ∃ record, j.fields ["trace_instructions", "max_steps"] = some record ∧
      field record "trace_instructions" false Json.bool? = some g.traceInstructions ∧
      field record "max_steps" defaultMaxSteps (fun v =>
        (Json.natBelow? UInt64.size v).map UInt64.ofNat) = some g.maxSteps := by
  simp only [GeneralConfig.ofJson, Option.bind_eq_bind, Option.bind_eq_some_iff]
  constructor
  · rintro ⟨record, fields, trace, htrace, maxSteps, hmaxSteps, whole⟩
    cases whole
    exact ⟨record, fields, htrace, hmaxSteps⟩
  · rintro ⟨record, fields, htrace, hmaxSteps⟩
    exact ⟨record, fields, _, htrace, _, hmaxSteps, rfl⟩

/-- **Settings are read section by section.** A section that is missing is read as one without
fields, so the defaults of a section and those of its fields are the same settings. -/
theorem ofJson_eq_some_iff : ofJson j = some c ↔
    ∃ top, j.fields ["general", "image"] = some top ∧
      GeneralConfig.ofJson ((top.lookup "general").getD (.object [])) = some c.toGeneralConfig ∧
      ImageConfig.ofJson ((top.lookup "image").getD (.object [])) = some c.toImageConfig := by
  simp only [ofJson, Json.section_eq GeneralConfig.ofJson_empty,
    Json.section_eq ImageConfig.ofJson_empty, Option.bind_eq_bind, Option.bind_eq_some_iff]
  constructor
  · rintro ⟨top, sections, g, general, i, image, whole⟩
    cases whole
    exact ⟨top, sections, general, image⟩
  · rintro ⟨top, sections, general, image⟩
    exact ⟨top, sections, _, general, _, image, rfl⟩

/-- A text of settings is accepted or refused for the settings that it stands for. -/
theorem parse_of_ofJson {text : String} (parsed : Json.parse text.toList = some j)
    (stands : ofJson j = some c) : parse text = c.validate.map fun _ => c := by
  rw [parse, parsed, Option.bind_some, stands]
  dsimp only
  cases c.validate <;> rfl

/-- Values that are the same but for the origin stand for settings that are the same but for it. -/
theorem ofJson_of_blankOrigin (same : blankOrigin j = blankOrigin j') (h : ofJson j = some c)
    (h' : ofJson j' = some c') :
    c.traceInstructions = c'.traceInstructions ∧ c.maxSteps = c'.maxSteps := by
  obtain ⟨top, sections, general, -⟩ := ofJson_eq_some_iff.1 h
  obtain ⟨top', sections', general', -⟩ := ofJson_eq_some_iff.1 h'
  obtain ⟨others, -⟩ := Json.lookup_of_change_eq (by decide) same sections sections'
  rw [others "general" (by decide), general'] at general
  have unchanged := Option.some.inj general
  exact ⟨congrArg (·.traceInstructions) unchanged.symm, congrArg (·.maxSteps) unchanged.symm⟩

/-- Values that are the same but for the budget stand for settings that are the same but for it. -/
theorem ofJson_of_blankMaxSteps (same : blankMaxSteps j = blankMaxSteps j')
    (h : ofJson j = some c) (h' : ofJson j' = some c') :
    c.traceInstructions = c'.traceInstructions ∧ c.origin = c'.origin := by
  obtain ⟨top, sections, general, image⟩ := ofJson_eq_some_iff.1 h
  obtain ⟨top', sections', general', image'⟩ := ofJson_eq_some_iff.1 h'
  obtain ⟨others, blanked⟩ := Json.lookup_of_change_eq (by decide) same sections sections'
  constructor
  · obtain ⟨record, fields, trace, -⟩ := general_eq_some_iff.1 general
    obtain ⟨record', fields', trace', -⟩ := general_eq_some_iff.1 general'
    have unchanged := Json.lookup_of_section_eq (by decide) blanked fields fields'
    rw [Json.field_congr (unchanged "trace_instructions" (by decide)), trace'] at trace
    exact (Option.some.inj trace).symm
  · rw [others "image" (by decide), image'] at image
    exact congrArg (·.origin) (Option.some.inj image).symm

end Config

/-! ## Texts of settings -/

/-- A record is read from a text that starts with a bracket or a brace, behind white space. -/
theorem Json.exists_skipSpace_eq_cons {depth : Nat} {cs rest : List Char} {j : Json}
    {names : List String} {record : List (String × Json)}
    (h : readValue depth cs = some (j, rest)) (fields : j.fields names = some record) :
    ∃ mark tail, (mark = '[' ∨ mark = '{') ∧ skipSpace cs = mark :: tail := by
  cases depth with
  | zero => cases h
  | succ depth =>
    rw [readValue] at h
    split at h
    case h_1 | h_2 | h_3 =>
      cases h
      cases fields
    case h_4 =>
      obtain ⟨⟨points, rest⟩, -, whole⟩ := Option.map_eq_some_iff.1 h
      cases whole
      cases fields
    case h_5 starts => exact ⟨_, _, .inl rfl, starts⟩
    case h_6 starts => exact ⟨_, _, .inr rfl, starts⟩
    case h_7 =>
      obtain ⟨n, number, rfl, -⟩ := exists_numberText h
      cases fields

namespace Image

variable {text : String}

/-- A text whose first token is no word is no image. -/
theorem parse_error_of_allTokens {token : List Char} {ts : List (List Char)}
    (first : allTokens text.toList = token :: ts) (h : word? token = none) :
    ∃ e, parse text = .error e := by
  rw [← map_snd_numberedTokens] at first
  rw [parse]
  cases pairs : numberedTokens text.toList with
  | nil =>
    rw [pairs] at first
    cases first
  | cons pair rest =>
    rw [pairs] at first
    obtain ⟨n, token'⟩ := pair
    cases first
    rw [List.mapM_cons]
    simp only [h]
    exact ⟨_, rfl⟩

/-- No word starts with a bracket or a brace. -/
theorem word?_cons_eq_none {mark : Char} (h : mark = '[' ∨ mark = '{') (cs : List Char) :
    word? (mark :: cs) = none := by
  have strip : stripMark (mark :: cs) = mark :: cs := by rcases h with rfl | rfl <;> rfl
  have digit : Numeral.digit? 16 mark = none := by rcases h with rfl | rfl <;> rfl
  have other : isHexDigit mark = false := by rw [isHexDigit, digit]; rfl
  rw [word?, strip, if_pos]
  simp [other]

/-- The white space of JSON separates the tokens of an image. -/
theorem isSeparator_of_isSpace {c : Char} (h : Json.isSpace c = true) : isSeparator c = true := by
  simp only [Json.isSpace, Bool.or_eq_true, beq_iff_eq] at h
  rcases h with ((rfl | rfl) | rfl) | rfl <;> rfl

/-- White space in front of a text has no tokens. -/
theorem allTokens_skipSpace (cs : List Char) : allTokens (Json.skipSpace cs) = allTokens cs := by
  induction cs with
  | nil => rfl
  | cons c cs ih =>
    rw [Json.skipSpace, List.dropWhile_cons]
    split
    case isTrue space => rw [allTokens_of_isSeparator (isSeparator_of_isSpace space), ← ih]; rfl
    case isFalse => rfl

/-- The first token of a text that starts with part of one. -/
theorem exists_allTokens_eq_cons {c : Char} (h : isSolid c = true) (cs : List Char) :
    ∃ token ts, allTokens (c :: cs) = (c :: token) :: ts := by
  have cut : c :: cs = (c :: cs.takeWhile isSolid) ++ cs.dropWhile isSolid := by
    rw [List.cons_append, List.takeWhile_append_dropWhile]
  have solid : ∀ d ∈ c :: cs.takeWhile isSolid, isSolid d = true := by
    intro d hd
    rcases List.mem_cons.1 hd with rfl | hd
    · exact h
    · exact List.mem_takeWhile_imp hd
  have breaks : Breaks (cs.dropWhile isSolid) := by
    intro d hd
    have first := List.head?_dropWhile_not isSolid cs
    rw [hd] at first
    exact first
  rw [cut]
  exact ⟨_, _, allTokens_token (List.cons_ne_nil _ _) solid breaks⟩

/-- **No text is both settings and an image.** -/
theorem parse_error_of_ofJson {j : Json} {c : Config} (parsed : Json.parse text.toList = some j)
    (stands : Config.ofJson j = some c) : ∃ e, parse text = .error e := by
  obtain ⟨top, sections, -⟩ := Config.ofJson_eq_some_iff.1 stands
  rw [Json.parse] at parsed
  simp only [Option.bind_eq_bind, Option.bind_eq_some_iff] at parsed
  obtain ⟨⟨value, rest⟩, read, -, -, whole⟩ := parsed
  cases whole
  obtain ⟨mark, tail, hmark, starts⟩ := Json.exists_skipSpace_eq_cons read sections
  have solid : isSolid mark = true := by rcases hmark with rfl | rfl <;> rfl
  obtain ⟨token, ts, first⟩ := exists_allTokens_eq_cons solid tail
  rw [← starts, allTokens_skipSpace] at first
  exact parse_error_of_allTokens first (word?_cons_eq_none hmark token)

end Image
end Accumulator
