import Mathlib.Data.List.Nodup
import Accumulator.Proofs.Settings

/-!
# Settings with and without a field

Two JSON values can be the same but for one field of a record: it has another value, or one of them
has no such field at all (`SameBut`). What is read off them is then the same in all other fields
(`SameBut.fields`), whether the record is an object or a list. `SameButTracing` says so of whole
settings and the trace switch, and two such values either both stand for nothing or for settings
that are the same but for the switch (`SameButTracing.ofJson`).
-/

namespace Accumulator

namespace Json

/-- Two values are the same but for the field with the name, and the values that they have for it,
if they have any, are related. -/
inductive SameBut (names : List String) (name : String) (R : Option Json → Option Json → Prop) :
    Json → Json → Prop
  /-- A member of an object, the only one with the name. -/
  | member {front back : List (List Nat × Json)} {key : List Nat} {v v' : Option Json} :
      (text? key).map String.ofList = some name →
      (∀ m ∈ front ++ back, (text? m.1).map String.ofList ≠ some name) → R v v' →
      SameBut names name R (.object (front ++ v.toList.map (key, ·) ++ back))
        (.object (front ++ v'.toList.map (key, ·) ++ back))
  /-- An item of a list, in the place of the name; only the last can be missing. -/
  | item {front back : List Json} {v v' : Option Json} :
      front.length = names.idxOf name → (v = none ∨ v' = none → back = []) → R v v' →
      SameBut names name R (.array (front ++ v.toList ++ back))
        (.array (front ++ v'.toList ++ back))

/-- Two records are the same but for the field with the name, and what they have for it is
related. -/
structure Agree (name : String) (R : Option Json → Option Json → Prop)
    (record record' : List (String × Json)) : Prop where
  others : ∀ n ≠ name, record.lookup n = record'.lookup n
  related : R (record.lookup name) (record'.lookup name)

variable {names : List String} {name n : String} {R : Option Json → Option Json → Prop}
  {j j' : Json} {v v' : Option Json} {front back record : List (String × Json)}
  {members : List (List Nat × Json)} {key : List Nat}

/-- An object with no other members, without the field and with it. -/
theorem SameBut.only {value : Json} (h : (text? key).map String.ofList = some name)
    (related : R none (some value)) :
    SameBut names name R (.object []) (.object [(key, value)]) :=
  @SameBut.member names name R [] [] key none (some value) h nofun related

/-! ## One field of a record -/

/-- A field that is put into a record, or left out, is looked up as what it is. -/
theorem lookup_insert (absent : name ∉ (front ++ back).map (·.1)) (v : Option Json) (n : String) :
    (front ++ v.toList.map (name, ·) ++ back).lookup n =
      if n = name then v else (front ++ back).lookup n := by
  have other (r : List (String × Json)) (h : name ∉ r.map (·.1)) : r.lookup name = none := by
    rw [List.lookup_eq_none_iff]
    intro field hfield
    exact bne_iff_ne.2 fun same => h (List.mem_map.2 ⟨field, hfield, same.symm⟩)
  rw [List.map_append, List.mem_append, not_or] at absent
  rw [List.lookup_append, List.lookup_append, List.lookup_append]
  by_cases here : n = name
  · subst here
    rw [if_pos rfl, other front absent.1, other back absent.2]
    cases v <;> simp
  · have passed : (n == name) = false := beq_false_of_ne here
    rw [if_neg here]
    cases v <;> simp [List.lookup_cons, passed]

/-- It comes twice no more than the other fields do. -/
theorem nodup_insert (absent : name ∉ (front ++ back).map (·.1)) (v : Option Json) :
    ((front ++ v.toList.map (name, ·) ++ back).map (·.1)).Nodup ↔
      ((front ++ back).map (·.1)).Nodup := by
  rw [List.map_append] at absent
  cases v with
  | none => rw [Option.toList_none, List.map_nil, List.append_nil]
  | some value =>
    rw [Option.toList_some, List.map_singleton, List.append_assoc, List.singleton_append,
      List.map_append, List.map_cons, List.nodup_middle, List.nodup_cons, List.map_append]
    exact and_iff_right absent

/-- Two values put into one place make records that agree on all other fields. -/
theorem agree_insert (absent : name ∉ (front ++ back).map (·.1)) (h : R v v') :
    Agree name R (front ++ v.toList.map (name, ·) ++ back)
      (front ++ v'.toList.map (name, ·) ++ back) := by
  refine ⟨fun n other => ?_, ?_⟩
  · rw [lookup_insert absent, lookup_insert absent, if_neg other, if_neg other]
  · rw [lookup_insert absent, lookup_insert absent, if_pos rfl, if_pos rfl]
    exact h

/-! ## Members of an object -/

/-- A member is named by the text of its key. -/
theorem named?_eq (m : List Nat × Json) :
    named? m = ((text? m.1).map String.ofList).map (·, m.2) := by
  rw [named?]
  cases text? m.1 <;> rfl

/-- A name that no member has is not among the names of the members. -/
theorem not_mem_names (h : members.mapM named? = some record)
    (absent : ∀ m ∈ members, (text? m.1).map String.ofList ≠ some name) :
    name ∉ record.map (·.1) := by
  induction members generalizing record with
  | nil =>
    cases h
    exact List.not_mem_nil
  | cons member members ih =>
    obtain ⟨hmember, hmembers⟩ := List.forall_mem_cons.1 absent
    simp only [List.mapM_cons, Option.bind_eq_bind, Option.bind_eq_some_iff, named?_eq,
      Option.map_eq_some_iff (f := (·, member.2))] at h
    obtain ⟨_, ⟨other, denotes, rfl⟩, rest, hrest, whole⟩ := h
    cases whole
    rw [List.map_cons]
    refine List.not_mem_cons_of_ne_of_not_mem ?_ (ih hrest hmembers)
    rintro rfl
    exact hmember denotes

/-- The member that is put in is named by its key. -/
theorem mapM_named?_insert (h : (text? key).map String.ofList = some name) (v : Option Json) :
    (v.toList.map (key, ·)).mapM named? = some (v.toList.map (name, ·)) := by
  cases v with
  | none => rfl
  | some value =>
    have named : named? (key, value) = some (name, value) := by rw [named?_eq, h, Option.map_some]
    rw [Option.toList_some, List.map_singleton, List.mapM_cons, named]
    rfl

/-- **The fields of an object with one member put in**, or left out: they are readable just in case
those without it are, and have it besides. -/
theorem fields_insert (known : name ∈ names) (h : (text? key).map String.ofList = some name)
    {front back : List (List Nat × Json)}
    (absent : ∀ m ∈ front ++ back, (text? m.1).map String.ofList ≠ some name) :
    (∀ v : Option Json, (object (front ++ v.toList.map (key, ·) ++ back)).fields names = none) ∨
    ∃ r r' : List (String × Json), name ∉ (r ++ r').map (·.1) ∧ ∀ v : Option Json,
      (object (front ++ v.toList.map (key, ·) ++ back)).fields names =
        some (r ++ v.toList.map (name, ·) ++ r') := by
  have whole (v : Option Json) : (front ++ v.toList.map (key, ·) ++ back).mapM named? =
      (front.mapM named?).bind fun named => (back.mapM named?).map fun named' =>
        named ++ v.toList.map (name, ·) ++ named' := by
    rw [List.mapM_append, List.mapM_append, mapM_named?_insert h]
    cases front.mapM named? <;> cases back.mapM named? <;> rfl
  simp only [fields_object, whole]
  cases hfront : front.mapM named? with
  | none => exact .inl fun _ => rfl
  | some named =>
  cases hback : back.mapM named? with
  | none => exact .inl fun _ => rfl
  | some named' =>
  have given (v : Option Json) :
      (v.toList.map (name, ·)).filter (names.contains ·.1) = v.toList.map (name, ·) := by
    cases v <;> simp [known]
  have free : name ∉ ((named.filter (names.contains ·.1)) ++
      named'.filter (names.contains ·.1)).map (·.1) := by
    have all : name ∉ (named ++ named').map (·.1) := by
      refine not_mem_names ?_ absent
      rw [List.mapM_append, hfront, hback]
      rfl
    rw [← List.filter_append]
    exact fun hmem => all ((List.filter_sublist.map _).subset hmem)
  -- so whether a known name comes twice does not depend on the member
  simp only [Option.bind_some, Option.map_some, List.filter_append, given, nodup_insert free]
  split
  case isTrue => exact .inr ⟨_, _, free, fun _ => rfl⟩
  case isFalse => exact .inl fun _ => rfl

/-! ## Items of a list -/

/-- The fields of a list with an item put in the place of the name, or left out. -/
theorem fields_item (known : name ∈ names) (distinct : names.Nodup) {front back : List Json}
    (place : front.length = names.idxOf name) :
    (∀ v : Option Json, (v = none → back = []) →
      (array (front ++ v.toList ++ back)).fields names = none) ∨
    ∃ r r' : List (String × Json), name ∉ (r ++ r').map (·.1) ∧
      ∀ v : Option Json, (v = none → back = []) →
        (array (front ++ v.toList ++ back)).fields names =
          some (r ++ v.toList.map (name, ·) ++ r') := by
  obtain ⟨pre, post, rfl, fresh⟩ := List.eq_append_cons_of_mem known
  rw [List.idxOf_append_of_notMem fresh, List.idxOf_cons_self, Nat.add_zero] at place
  have short (v : Option Json) (missing : v = none → back = []) :
      (front ++ v.toList ++ back).length ≤ (pre ++ name :: post).length ↔
        back.length ≤ post.length := by
    simp only [List.length_append, List.length_cons, place]
    cases v with
    | none => simp [missing rfl]
    | some value => simp only [Option.toList_some, List.length_singleton]; omega
  have zip (v : Option Json) (missing : v = none → back = []) :
      (pre ++ name :: post).zip (front ++ v.toList ++ back) =
        pre.zip front ++ v.toList.map (name, ·) ++ post.zip back := by
    rw [List.append_assoc, List.zip_append place.symm, List.append_assoc]
    cases v with
    | none => simp [missing rfl]
    | some value => rfl
  have free : name ∉ (pre.zip front ++ post.zip back).map (·.1) := by
    rw [List.nodup_middle, List.nodup_cons] at distinct
    intro hmem
    obtain ⟨field, hfield, same⟩ := List.mem_map.1 hmem
    rcases List.mem_append.1 hfield with hfield | hfield
    · exact fresh (same ▸ (List.of_mem_zip hfield).1)
    · exact distinct.1 (List.mem_append_right _ (same ▸ (List.of_mem_zip hfield).1))
  by_cases fits : back.length ≤ post.length
  · refine .inr ⟨_, _, free, fun v missing => ?_⟩
    rw [fields_array, if_pos ((short v missing).2 fits), zip v missing]
  · refine .inl fun v missing => ?_
    rw [fields_array, if_neg (mt (short v missing).1 fits)]

/-- **Values that are the same but for a field are read alike**: both are records that are the same
but for the field, or neither is a record. -/
theorem SameBut.fields (known : name ∈ names) (distinct : names.Nodup)
    (h : SameBut names name R j j') :
    Option.Rel (Agree name R) (j.fields names) (j'.fields names) := by
  cases h with
  | member denotes absent related =>
    obtain unreadable | ⟨r, r', free, read⟩ := fields_insert known denotes absent
    · rw [unreadable, unreadable]
      exact .none
    · rw [read, read]
      exact .some (agree_insert free related)
  | item place missing related =>
    obtain unreadable | ⟨r, r', free, read⟩ := fields_item known distinct place
    · rw [unreadable _ fun h => missing (.inl h), unreadable _ fun h => missing (.inr h)]
      exact .none
    · rw [read _ fun h => missing (.inl h), read _ fun h => missing (.inr h)]
      exact .some (agree_insert free related)

end Json

namespace Config

open Json (SameBut field)

variable {b b' : Option Bool} {j j' : Json}

/-- Two values for settings are the same but for the trace switch, which the one sets to `b` and the
other to `b'`, if they set it at all; without it the general section may be missing. -/
def SameButTracing (b b' : Option Bool) : Json → Json → Prop :=
  SameBut ["general", "image"] "general" fun general general' =>
    SameBut ["trace_instructions", "max_steps"] "trace_instructions"
      (fun v v' => v = b.map .bool ∧ v' = b'.map .bool)
      (general.getD (.object [])) (general'.getD (.object []))

/-- A trace switch is read as it is given, and as off if it is missing. -/
theorem trace_eq {record : List (String × Json)}
    (h : record.lookup "trace_instructions" = b.map .bool) :
    field record "trace_instructions" false Json.bool? = some (b.getD false) :=
  Json.field_eq h fun _ => rfl

/-- General sections that are the same but for the trace switch stand for general settings that are
the same but for it, or both for none. -/
theorem exists_general {j j' : Json} (h : SameBut ["trace_instructions", "max_steps"]
    "trace_instructions" (fun v v' => v = b.map .bool ∧ v' = b'.map .bool) j j') :
    ∃ settings : Option GeneralConfig,
      GeneralConfig.ofJson j = settings.map ({ · with traceInstructions := b.getD false }) ∧
      GeneralConfig.ofJson j' = settings.map ({ · with traceInstructions := b'.getD false }) := by
  have records := SameBut.fields (by decide) (by decide) h
  simp only [GeneralConfig.ofJson]
  generalize j.fields ["trace_instructions", "max_steps"] = g at records ⊢
  generalize j'.fields ["trace_instructions", "max_steps"] = g' at records ⊢
  cases records with
  | none => exact ⟨none, rfl, rfl⟩
  | @some g g' agree =>
  obtain ⟨switch, switch'⟩ := agree.related
  simp only [Option.bind_eq_bind, Option.bind_some, trace_eq switch, trace_eq switch',
    Json.field_congr (agree.others "max_steps" (by decide))]
  cases field g' "max_steps" defaultMaxSteps fun v =>
      (Json.natBelow? UInt64.size v).map UInt64.ofNat with
  | none => exact ⟨none, rfl, rfl⟩
  | some m => exact ⟨some { maxSteps := m }, rfl, rfl⟩

/-- **The trace switch is a setting of its own.** Values that are the same but for it stand for
settings that are the same but for it, or both for none. -/
theorem SameButTracing.ofJson (h : SameButTracing b b' j j') : ∃ settings : Option Config,
    ofJson j = settings.map (fun c => { c with traceInstructions := b.getD false }) ∧
    ofJson j' = settings.map (fun c => { c with traceInstructions := b'.getD false }) := by
  simp only [Config.ofJson, Json.section_eq GeneralConfig.ofJson_empty]
  have sections := SameBut.fields (by decide) (by decide) h
  generalize j.fields ["general", "image"] = top at sections ⊢
  generalize j'.fields ["general", "image"] = top' at sections ⊢
  cases sections with
  | none => exact ⟨none, rfl, rfl⟩
  | @some top top' agree =>
  -- the image section is the same in both, and the general one is the same but for the switch
  have image : field top "image" {} ImageConfig.ofJson = field top' "image" {} ImageConfig.ofJson :=
    Json.field_congr (agree.others "image" (by decide))
  obtain ⟨general, on, off⟩ := exists_general agree.related
  simp only [Option.bind_eq_bind, Option.bind_some, image, on, off]
  cases general with
  | none => exact ⟨none, rfl, rfl⟩
  | some g =>
  cases field top' "image" {} ImageConfig.ofJson with
  | none => exact ⟨none, rfl, rfl⟩
  | some i => exact ⟨some { g, i with }, rfl, rfl⟩

end Config
end Accumulator
