import Accumulator.Proofs.Session
import Accumulator.Proofs.Settings

/-!
# Options against the file of settings

An option overrides the setting of the same name in the file, so files that differ in that setting
alone give the same run (`override_law`). But a file is accepted or refused by itself, before
anything is overridden: a file whose origin names no cell is refused whatever the options are, and
so one file with its origin inside memory and one with it outside are not alike
(`override_law_acrossMemory`).

The file of settings may be given as the image as well. That makes no difference, since it is never
an image.
-/

namespace Accumulator.Command

variable {env env' : Environment} {path path' : String} {j j' : Json} {c c' : Config}
  {o o' : RunOptions}

/-- A file of settings that is well-formed and well-typed: its JSON value and its settings. -/
structure Holds (env : Environment) (path : String) (j : Json) (c : Config) : Prop where
  read : ∃ text, env.text path = .ok text ∧ Json.parse text.toList = some j
  stands : Config.ofJson j = some c

/-- The options with the settings read from a file. -/
def RunOptions.reading (o : RunOptions) (path : String) : RunOptions :=
  { o with config := some path }

/-! ## A file of settings -/

/-- What a well-typed file of settings is loaded as depends on the validation alone. -/
theorem Holds.loadConfig_eq (file : Holds env path j c) : loadConfig env path =
    (c.validate.mapError fun e => "Error in config " ++ path ++ ": " ++ e.message).map
      fun _ => c := by
  obtain ⟨text, read, parsed⟩ := file.read
  rw [loadConfig, read]
  dsimp only [Except.mapError, bind, Except.bind]
  rw [Config.parse_of_ofJson parsed file.stands]
  cases c.validate <;> rfl

/-- A file whose origin names a cell leaves it to the options what is settled. -/
theorem Holds.settings_eq (file : Holds env path j c)
    (inside : c.origin.value.toNat < memoryWords) :
    (o.reading path).settings env = o.settle c := by
  rw [settings_of_some rfl, file.loadConfig_eq, Config.validate_eq_ok_iff.2 inside]
  rfl

/-- A file whose origin names no cell is refused, whatever the options. -/
theorem Holds.seen_run_of_le (file : Holds env path j c)
    (outside : memoryWords ≤ c.origin.value.toNat) :
    (run env (o.reading path)).seen = (1, "") := by
  rw [run, settings_of_some rfl, file.loadConfig_eq, Config.validate, if_pos outside]
  rfl

/-- A file of settings is no image. -/
theorem Holds.not_provides (file : Holds env path j c) (image : o.image = some path) :
    ¬ ∃ name words, (o.reading path).Provides env name words := by
  rintro ⟨name, words, provides⟩
  obtain ⟨text, read, parsed⟩ := file.read
  obtain ⟨e, refused⟩ := Image.parse_error_of_ofJson parsed file.stands
  obtain ⟨bytes, contents, decoded⟩ := text_eq_ok_iff.1 read
  cases provides with
  | builtIn missing => cases image.symm.trans missing
  | file image' contents' decoded' parsed' =>
    cases image.symm.trans image'
    cases contents.symm.trans contents'
    cases decoded.symm.trans decoded'
    cases refused.symm.trans parsed'

/-! ## Runs that are alike -/

/-- The same settings and the same image give the same exit code and output. -/
theorem seen_run_congr (settings : o.settings env = o'.settings env')
    (image : o.loadImage env = o'.loadImage env') (dump : o.dump = o'.dump) :
    (run env o).seen = (run env' o').seen := by
  rw [run, run, settings]
  cases o'.settings env' with
  | error message => rfl
  | ok c =>
    dsimp only
    rw [runConfigured, runConfigured, image, dump]
    rfl

/-- Files that settle alike behind the options give the same exit code and output, if all other
files are the same. -/
theorem seen_run_of_override_eq (file : Holds env path j c) (file' : Holds env' path' j' c')
    (others : ∀ q, ¬ (q = path ∧ q = path') → env.file q = env'.file q)
    (inside : c.origin.value.toNat < memoryWords ↔ c'.origin.value.toNat < memoryWords)
    (same : o.override c = o.override c') :
    (run env (o.reading path)).seen = (run env' (o.reading path')).seen := by
  by_cases h : c.origin.value.toNat < memoryWords
  swap
  · rw [file.seen_run_of_le (Nat.not_lt.1 h), file'.seen_run_of_le (Nat.not_lt.1 (mt inside.2 h))]
  by_cases aliased : ∃ q, o.image = some q ∧ q = path ∧ q = path'
  · -- the file that differs is the image as well, which it cannot be
    obtain ⟨q, image, rfl, rfl⟩ := aliased
    rw [seen_run_of_not_provides (file.not_provides image),
      seen_run_of_not_provides (file'.not_provides image)]
  · refine seen_run_congr ?_ ?_ rfl
    · rw [file.settings_eq h, file'.settings_eq (inside.1 h), RunOptions.settle, RunOptions.settle,
        same]
    · rw [RunOptions.loadImage, RunOptions.loadImage]
      dsimp only [RunOptions.reading]
      cases image : o.image with
      | none => rfl
      | some q =>
        dsimp only
        rw [others q fun both => aliased ⟨q, image, both⟩]

/-! ## Files that differ in the origin alone -/

/-- The text of a file that sets the origin alone. -/
def originText (digits : String) : String :=
  "\x7b\"image\":\x7b\"origin\":" ++ digits ++ "\x7d\x7d"

/-- The key of a member as code points. -/
def points (name : String) : List Nat :=
  name.toList.map Char.toNat

/-- The JSON value of a file that sets the origin alone. -/
def originValue (origin : Nat) : Json :=
  .object [(points "image", .object [(points "origin", .number (some origin))])]

/-- The origin of a JSON value that sets the origin alone. -/
def originOf? : Json → Option Nat
  | .object [(key, .object [(key', .number (some origin))])] =>
    if key = points "image" ∧ key' = points "origin" then some origin else none
  | _ => none

/-- An image with nothing but a halt, and files that set the origin to the number they are named
after. -/
def originFiles : Environment where
  file path := .ok (if path = "halt.hex" then "0\n" else originText path).toUTF8
  logFilter := none

/-- The origin can be read back from a value that sets the origin alone. -/
theorem eq_originValue {origin : Nat} (h : originOf? j = some origin) : j = originValue origin := by
  unfold originOf? at h
  split at h
  · split at h
    · rename_i keys
      obtain ⟨rfl, rfl⟩ := keys
      cases h
      rfl
    · cases h
  · cases h

/-- Two values that set the origin alone differ in the origin alone. -/
theorem blankOrigin_originValue (origin origin' : Nat) :
    Config.blankOrigin (originValue origin) = Config.blankOrigin (originValue origin') := by
  have image : (Json.text? (points "image")).map String.ofList = some "image" := by decide +kernel
  have named : (Json.text? (points "origin")).map String.ofList = some "origin" := by decide +kernel
  simp [Config.blankOrigin, originValue, Json.change, Json.changeMember, image, named]

/-- A file that sets the origin stands for settings with that origin. -/
theorem holds_originFiles {digits : String} {origin : Nat} (named : digits ≠ "halt.hex")
    (parsed : (Json.parse (originText digits).toList).bind originOf? = some origin)
    (stands : Config.ofJson (originValue origin) = some c) :
    Holds originFiles digits (originValue origin) c := by
  have decoded : String.fromUTF8? (originText digits).toUTF8 = some (originText digits) :=
    dif_pos (originText digits).isValidUTF8
  obtain ⟨j, parsed, sets⟩ := Option.bind_eq_some_iff.1 parsed
  refine ⟨⟨originText digits, text_eq_ok_iff.2 ⟨_, ?_, decoded⟩, ?_⟩, stands⟩
  · exact congrArg (fun text : String => Except.ok text.toUTF8) (if_neg named)
  · rw [parsed, eq_originValue sets]

/-- With its origin at the first cell, at the last one and at the address behind it. -/
theorem holds_first : Holds originFiles "0" (originValue 0) {} :=
  holds_originFiles (by decide) (by decide +kernel) (by decide +kernel)

theorem holds_last : Holds originFiles "255" (originValue 255) { origin := ⟨255⟩ } :=
  holds_originFiles (by decide) (by decide +kernel) (by decide +kernel)

theorem holds_behind : Holds originFiles "256" (originValue 256) { origin := ⟨256⟩ } :=
  holds_originFiles (by decide) (by decide +kernel) (by decide +kernel)

/-- **Options override the file of settings.** Take two files that are well-formed and well-typed,
under two names or under one name at two times. If they differ in the origin alone, both origins
name a cell or neither does, and the origin is given as an option, the runs have the same exit code
and output. The same holds if they differ in the budget alone and the budget is given. A file whose
origin names no cell is refused with exit code 1 and no output, whatever the options. -/
theorem override_law (o : RunOptions) (file : Holds env path j c) (file' : Holds env' path' j' c')
    (others : ∀ q, ¬ (q = path ∧ q = path') → env.file q = env'.file q) :
    (o.origin.isSome → Config.blankOrigin j = Config.blankOrigin j' →
      (c.origin.value.toNat < memoryWords ↔ c'.origin.value.toNat < memoryWords) →
      (run env (o.reading path)).seen = (run env' (o.reading path')).seen) ∧
    (o.maxSteps.isSome → Config.blankMaxSteps j = Config.blankMaxSteps j' →
      (run env (o.reading path)).seen = (run env' (o.reading path')).seen) ∧
    (memoryWords ≤ c.origin.value.toNat → (run env (o.reading path)).seen = (1, "")) := by
  refine ⟨fun given differ inside => ?_, fun given differ => ?_, file.seen_run_of_le⟩
  · obtain ⟨trace, maxSteps⟩ := Config.ofJson_of_blankOrigin differ file.stands file'.stands
    obtain ⟨origin, given⟩ := Option.isSome_iff_exists.1 given
    refine seen_run_of_override_eq file file' others inside ?_
    rw [RunOptions.override, RunOptions.override, trace, maxSteps, given]
    rfl
  · obtain ⟨trace, origin⟩ := Config.ofJson_of_blankMaxSteps differ file.stands file'.stands
    obtain ⟨maxSteps, given⟩ := Option.isSome_iff_exists.1 given
    refine seen_run_of_override_eq file file' others (by rw [origin]) ?_
    rw [RunOptions.override, RunOptions.override, trace, origin, given]
    rfl

/-- Origins at both ends of memory, overridden by a third. -/
theorem override_law_withinMemory :
    let o : RunOptions := { image := "halt.hex", origin := some 16 }
    Holds originFiles "0" (originValue 0) {} ∧
    Holds originFiles "255" (originValue 255) { origin := ⟨255⟩ } ∧
    (run originFiles (o.reading "0")).seen = (run originFiles (o.reading "255")).seen := by
  intro o
  obtain ⟨origin, -⟩ := override_law o holds_first holds_last fun _ _ => rfl
  refine ⟨holds_first, holds_last, origin rfl (blankOrigin_originValue 0 255) ?_⟩
  exact iff_of_true (by decide) (by decide)

/-- **An option does not undo the refusal of a file.** Two files that differ in the origin alone are
not alike if the origin of one names a cell and that of the other does not, even where the origin
is overridden. -/
theorem override_law_acrossMemory :
    let o : RunOptions := { image := "halt.hex", origin := some 0 }
    Holds originFiles "0" (originValue 0) {} ∧
    Holds originFiles "256" (originValue 256) { origin := ⟨256⟩ } ∧
    Config.blankOrigin (originValue 0) = Config.blankOrigin (originValue 256) ∧
    (run originFiles (o.reading "0")).code = 0 ∧
    (run originFiles (o.reading "256")).code = 1 := by
  refine ⟨holds_first, holds_behind, blankOrigin_originValue 0 256, ?_, ?_⟩
  · decide +kernel
  · decide +kernel

end Accumulator.Command
