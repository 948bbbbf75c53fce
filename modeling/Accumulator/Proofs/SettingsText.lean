import Mathlib.Data.List.Permutation
import Accumulator.Proofs.JsonText
import Accumulator.Proofs.Override
import Accumulator.Proofs.Placement
import Accumulator.Proofs.Variants

/-!
# The settings in a text

A JSON value holds fields as an object, whose members may come in any order and with others among
them, or as a list, in which the fields come in order and the last may be missing
(`Json.HasFields`). In either form the fields are read back as they are given (`exists_fields`).
Settings are two such records in a third, and any of their three fields can be left out
(`Config.Gives`): `settings_text_law` says which settings are read from a text of such a value, and
that no settings are read that would not be accepted.
-/

namespace Accumulator

namespace Json

variable {names : List String} {name : String} {j : Json} {cs : List Char} {points : List Nat}
  {fields : List (String × Option Json)} {members : List (List Nat × Json)} {items : List Json}
  {record named : List (String × Json)} {k : Nat}

/-! ## Keys -/

/-- The code points denote the text. A character is given by its own or, if that is beyond the first
`0x10000`, by a pair of surrogates. -/
inductive Denotes : List Nat → List Char → Prop
  | nil : Denotes [] []
  | char {c : Char} {points : List Nat} {cs : List Char} :
      Denotes points cs → Denotes (c.toNat :: points) (c :: cs)
  | pair {c : Char} {high low : Nat} {points : List Nat} {cs : List Char} :
      high < 0x400 → low < 0x400 → c.toNat = 0x10000 + high * 0x400 + low → Denotes points cs →
      Denotes ((0xD800 + high) :: (0xDC00 + low) :: points) (c :: cs)

/-- No character is half of a surrogate pair. -/
theorem not_isSurrogate (c : Char) :
    isHighSurrogate c.toNat = false ∧ isLowSurrogate c.toNat = false := by
  have valid : c.toNat < 0xD800 ∨ 0xDFFF < c.toNat ∧ c.toNat < 0x110000 := c.valid
  simp only [isHighSurrogate, isLowSurrogate, Bool.and_eq_false_iff, decide_eq_false_iff_not]
  omega

/-- Code points that denote a text are read as it. -/
theorem Denotes.text?_eq (h : Denotes points cs) : text? points = some cs := by
  induction h with
  | nil => rfl
  | @char c points cs _ ih =>
    obtain ⟨high, low⟩ := not_isSurrogate c
    cases points with
    | nil =>
      cases ih
      rw [text?, high, low, Char.ofNat_toNat]
      rfl
    | cons next rest =>
      rw [text?, high, low, ih, Char.ofNat_toNat]
      rfl
  | @pair c high low points cs hhigh hlow value _ ih =>
    have first : isHighSurrogate (0xD800 + high) = true ∧
        isLowSurrogate (0xD800 + high) = false := by
      simp only [isHighSurrogate, isLowSurrogate, Bool.and_eq_false_iff, Bool.and_eq_true,
        decide_eq_true_eq, decide_eq_false_iff_not]
      omega
    have second : isLowSurrogate (0xDC00 + low) = true := by
      simp only [isLowSurrogate, Bool.and_eq_true, decide_eq_true_eq]
      omega
    rw [text?, first.1, first.2, second, ih, Nat.add_sub_cancel_left, Nat.add_sub_cancel_left,
      ← value, Char.ofNat_toNat]
    rfl

/-- A text is denoted by the code points of its characters. -/
theorem denotes_points (name : String) : Denotes (Command.points name) name.toList := by
  rw [Command.points]
  induction name.toList with
  | nil => exact .nil
  | cons c cs ih => exact .char ih

/-! ## Records -/

/-- The value is a record with the fields, each of which is given or missing. -/
inductive HasFields (fields : List (String × Option Json)) : Json → Prop
  /-- The members of an object have names, and the fields are those with their names. What other
  members there are does not matter. -/
  | object {members : List (List Nat × Json)} {named : List (String × Json)} :
      List.Forall₂ (fun m field => Denotes m.1 field.1.toList ∧ m.2 = field.2) members named →
      (∀ field ∈ fields,
        (named.filter (·.1 = field.1)).map (·.2) = field.2.toList) →
      HasFields fields (.object members)
  /-- The items of a list are the fields in order, of which the last can be missing. -/
  | list {items : List Json} {missing : Nat} :
      fields.map (·.2) = items.map some ++ List.replicate missing none →
      HasFields fields (.array items)

/-- An object whose keys are written without pairs. -/
def ofNamed (named : List (String × Json)) : Json :=
  .object (named.map fun field => (Command.points field.1, field.2))

/-- Named values have the fields that are found under the names. -/
theorem hasFields_ofNamed (h : ∀ field ∈ fields,
    (named.filter (·.1 = field.1)).map (·.2) = field.2.toList) :
    HasFields fields (ofNamed named) := by
  refine .object ?_ h
  rw [List.forall₂_map_left_iff, List.forall₂_same]
  exact fun field _ => ⟨denotes_points field.1, rfl⟩

/-- Members whose keys denote names are read under these names. -/
theorem mapM_named?_eq (h : List.Forall₂ (fun m field => Denotes m.1 field.1.toList ∧
    m.2 = field.2) members named) : members.mapM named? = some named := by
  induction h with
  | nil => rfl
  | @cons m field members named h _ ih =>
    obtain ⟨name, value⟩ := field
    have head : named? m = some (name, value) := by
      rw [named?_eq, h.1.text?_eq, h.2]
      simp
    rw [List.mapM_cons, head, ih]
    rfl

/-- A field of an object is looked up as it is given. -/
theorem lookup_eq_of_filter {v : Option Json} (known : name ∈ names)
    (h : (named.filter (·.1 = name)).map (·.2) = v.toList) :
    (named.filter (names.contains ·.1)).lookup name = v := by
  induction named with
  | nil =>
    cases v with
    | none => rfl
    | some value => cases h
  | cons field named ih =>
    obtain ⟨n, value⟩ := field
    by_cases here : n = name
    · subst here
      rw [List.filter_cons_of_pos (by simp)] at h
      rw [List.filter_cons_of_pos (by simpa using known), List.lookup_cons_self]
      cases v with
      | none => simp at h
      | some value' =>
        obtain ⟨rfl, -⟩ := List.cons.inj h
        rfl
    · rw [List.filter_cons_of_neg (by simpa using here)] at h
      have passed : (name == n) = false := beq_false_of_ne (Ne.symm here)
      rw [List.filter_cons]
      split
      · rw [List.lookup_cons, passed]
        exact ih h
      · exact ih h

/-- A name that comes once at most comes twice in no record. -/
theorem nodup_of_filter (h : ∀ name ∈ names, (named.filter (·.1 = name)).length ≤ 1) :
    ((named.filter (names.contains ·.1)).map (·.1)).Nodup := by
  induction named with
  | nil => exact List.nodup_nil
  | cons field named ih =>
    have rest : ∀ name ∈ names, (named.filter (·.1 = name)).length ≤ 1 := fun name known =>
      (((List.sublist_cons_self field named).filter _).length_le).trans (h name known)
    rw [List.filter_cons]
    split
    case isTrue known =>
      refine List.nodup_cons.2 ⟨fun again => ?_, ih rest⟩
      obtain ⟨other, hother, same⟩ := List.mem_map.1 again
      have twice := h field.1 (by simpa using known)
      rw [List.filter_cons_of_pos (by simp), List.length_cons] at twice
      have among : other ∈ named.filter (·.1 = field.1) :=
        List.mem_filter.2 ⟨List.mem_of_mem_filter hother, by simpa using same⟩
      have := List.length_pos_of_mem among
      omega
    case isFalse => exact ih rest

/-- A field of a list is looked up as it is given. -/
theorem lookup_zip (distinct : (fields.map (·.1)).Nodup)
    (h : fields.map (·.2) = items.map some ++ List.replicate k none) {field : String × Option Json}
    (hfield : field ∈ fields) : ((fields.map (·.1)).zip items).lookup field.1 = field.2 := by
  induction fields generalizing items with
  | nil => cases hfield
  | cons first fields ih =>
    cases items with
    | nil =>
      have none : field.2 = none := by
        have mem := List.mem_map_of_mem (f := (·.2)) hfield
        rw [h] at mem
        exact List.eq_of_mem_replicate mem
      rw [List.zip_nil_right, none]
      rfl
    | cons item items =>
      obtain ⟨n, v⟩ := first
      obtain ⟨rfl, rest⟩ := List.cons.inj h
      obtain ⟨fresh, distinct⟩ := List.nodup_cons.1 distinct
      rw [List.map_cons, List.zip_cons_cons, List.lookup_cons]
      rcases List.mem_cons.1 hfield with rfl | hfield
      · simp
      · have named : field.1 ∈ fields.map (·.1) := List.mem_map_of_mem hfield
        have passed : (field.1 == n) = false := beq_false_of_ne fun same => fresh (same ▸ named)
        rw [passed]
        exact ih distinct rest hfield

/-- **The fields of a record are read back as they are given**, in either form. -/
theorem exists_fields (distinct : (fields.map (·.1)).Nodup) (h : HasFields fields j) :
    ∃ record, j.fields (fields.map (·.1)) = some record ∧
      ∀ field ∈ fields, record.lookup field.1 = field.2 := by
  cases h with
  | @object members named names given =>
    have once : ∀ name ∈ fields.map (·.1), (named.filter (·.1 = name)).length ≤ 1 := by
      intro name hname
      obtain ⟨field, hfield, rfl⟩ := List.mem_map.1 hname
      have count := congrArg List.length (given field hfield)
      rw [List.length_map] at count
      rw [count]
      cases field.2 <;> simp
    rw [fields_object, mapM_named?_eq names, Option.bind_some, if_pos (nodup_of_filter once)]
    exact ⟨_, rfl, fun field hfield =>
      lookup_eq_of_filter (List.mem_map_of_mem hfield) (given field hfield)⟩
  | @list items missing given =>
    have short : items.length ≤ (fields.map (·.1)).length := by
      have count := congrArg List.length given
      simp only [List.length_append, List.length_map] at count ⊢
      omega
    rw [fields_array, if_pos short]
    exact ⟨_, rfl, fun field hfield => lookup_zip distinct given hfield⟩

end Json

namespace Config

variable {t : Option Bool} {m : Option UInt64} {o : Option UInt16} {j : Json} {text : String}
  {c : Config}

/-- The value gives the settings that are there. A section that is missing is as good as an empty
one. -/
def Gives (t : Option Bool) (m : Option UInt64) (o : Option UInt16) (j : Json) : Prop :=
  ∃ general image : Option Json,
    Json.HasFields [("general", general), ("image", image)] j ∧
    Json.HasFields [("trace_instructions", t.map .bool),
      ("max_steps", m.map fun m => .number (some m.toNat))] (general.getD (.object [])) ∧
    Json.HasFields [("origin", o.map fun o => .number (some o.toNat))] (image.getD (.object []))

/-- What is given of the general settings is read, with the defaults for what is missing. -/
theorem general_of_hasFields (h : Json.HasFields [("trace_instructions", t.map .bool),
    ("max_steps", m.map fun m => .number (some m.toNat))] j) : GeneralConfig.ofJson j =
      some { traceInstructions := t.getD false, maxSteps := m.getD defaultMaxSteps } := by
  obtain ⟨record, fields, given⟩ := Json.exists_fields (by simp) h
  simp only [List.forall_mem_cons] at given
  refine general_eq_some_iff.2 ⟨record, fields, trace_eq given.1, Json.field_eq given.2.1 ?_⟩
  intro m
  rw [Json.natBelow?, if_pos m.toNat_lt, Option.map_some, UInt64.ofNat_toNat]

/-- What is given of the image settings is read, with the default for what is missing. -/
theorem image_of_hasFields
    (h : Json.HasFields [("origin", o.map fun o => .number (some o.toNat))] j) :
    ImageConfig.ofJson j = some { origin := (o.map Address.mk).getD defaultOrigin } := by
  obtain ⟨record, fields, given⟩ := Json.exists_fields (by simp) h
  simp only [List.map_cons, List.map_nil] at fields
  simp only [List.forall_mem_cons] at given
  have address : record.lookup "origin" =
      (o.map Address.mk).map fun a => .number (some a.value.toNat) := by
    rw [Option.map_map]
    exact given.1
  rw [ImageConfig.ofJson, fields, Option.bind_eq_bind, Option.bind_some,
    Json.field_eq address fun a => ?_]
  · rfl
  · rw [Json.natBelow?, if_pos a.value.toNat_lt, Option.map_some, UInt16.ofNat_toNat]

/-- What is given stands for settings with the defaults for what is missing. -/
theorem ofJson_of_gives (h : Gives t m o j) : ofJson j = some
    { traceInstructions := t.getD false, maxSteps := m.getD 10000, origin := ⟨o.getD 0⟩ } := by
  obtain ⟨general, image, hj, hgeneral, himage⟩ := h
  obtain ⟨top, sections, given⟩ := Json.exists_fields (by simp) hj
  simp only [List.forall_mem_cons] at given
  refine ofJson_eq_some_iff.2 ⟨top, sections, ?_, ?_⟩
  · rw [given.1]
    exact general_of_hasFields hgeneral
  · rw [given.2.1, image_of_hasFields himage]
    cases o <;> rfl

/-- Whatever is read is accepted. -/
theorem validate_of_parse (h : parse text = .ok c) : c.validate = .ok () := by
  rw [parse] at h
  split at h
  · cases h
  case h_2 c' stands =>
    cases accepted : c'.validate with
    | error e => simp [accepted, bind, Except.bind] at h
    | ok _ =>
      simp only [accepted, bind, Except.bind, pure, Except.pure, Except.ok.injEq] at h
      rw [← h, accepted]

/-- **Reading settings.** A text of a JSON value that gives some of the settings, and whatever else,
is read as these with the defaults for the others; if the origin, given or not, names no cell, it is
refused for this origin. Settings that are read, from whatever text, are valid. -/
theorem settings_text_law :
    (∀ (t : Option Bool) (m : Option UInt64) (o : Option UInt16) (j : Json) (text : String),
      Gives t m o j → Json.Derives (.element j) text.toList →
      parse text =
        if (o.getD 0).toNat < 256 then
          .ok { traceInstructions := t.getD false, maxSteps := m.getD 10000, origin := ⟨o.getD 0⟩ }
        else .error (.originOutOfRange ⟨o.getD 0⟩)) ∧
    ∀ (text : String) (c : Config), parse text = .ok c →
      c.validate = .ok () ∧ c.origin.value.toNat < 256 := by
  refine ⟨fun t m o j text gives derives => ?_, fun text c h => ?_⟩
  · rw [parse_of_ofJson (Json.parse_eq_some_iff.2 derives) (ofJson_of_gives gives), validate]
    by_cases inside : (o.getD 0).toNat < 256
    · rw [if_pos inside, if_neg (Nat.not_le.2 inside)]
      rfl
    · rw [if_neg inside, if_pos (Nat.not_lt.1 inside)]
      rfl
  · have accepted := validate_of_parse h
    exact ⟨accepted, validate_eq_ok_iff.1 accepted⟩

/-- A text with an unknown key in front, a letter of a key escaped and a section as a list. -/
def mixedText : String :=
  " \x7b \"note\": [null, -1.5e2, \"\\ud800\"],\n\"image\": \x7b\"origin\" : 300\x7d," ++
    "\t\"\\u0067eneral\":[ true ]\x7d\r\n"

/-- The section for the image in `mixedText`. -/
def mixedImage : Json :=
  .ofNamed [("origin", .number (some 300))]

/-- The value of `mixedText`. -/
def mixedValue : Json :=
  .ofNamed [("note", .array [.null, .number none, .string [0xD800]]), ("image", mixedImage),
    ("general", .array [.bool true])]

/-- Settings without a budget and with an origin that names no cell. -/
theorem settings_text_law_mixedText :
    Gives (some true) none (some 300) mixedValue ∧
      Json.Derives (.element mixedValue) mixedText.toList ∧
    parse mixedText = .error (.originOutOfRange ⟨300⟩) := by
  have gives : Gives (some true) none (some 300) mixedValue := by
    have switch : [some (.bool true), none] =
        [Json.bool true].map some ++ List.replicate 1 none := rfl
    exact ⟨some (.array [.bool true]), some mixedImage, Json.hasFields_ofNamed (by simp),
      .list switch, Json.hasFields_ofNamed (by simp)⟩
  have parsed : Json.parse mixedText.toList = some mixedValue := by cbv
  have derives := Json.parse_eq_some_iff.1 parsed
  exact ⟨gives, derives, settings_text_law.1 _ _ _ _ _ gives derives⟩

end Config
end Accumulator
