import Accumulator.Command.Session
import Accumulator.Proofs.Requests
import Accumulator.Proofs.Resume

/-!
# How a run of the program goes

What `accsim run` does is settled in three stages, and each can end it: the settings are read,
overridden and accepted (`RunOptions.Settles`), the image is read (`RunOptions.Provides`), and the
image is placed. Only then does the machine run, and all that it leaves is shown before its result
decides the exit code. `Goes` has one rule for each way through the stages, with the exit code and
the output that belong to it, and the ways are all the runs there are (`goes_iff`). The dump range
and the trace switch take no part in the stages and show in the output nowhere but in the rows of
the dump (`Goes.showing`).
-/

namespace Accumulator

section
variable {ε ε' α β : Type} {x : Except ε α} {f : α → Except ε β} {g : ε → ε'} {a : α} {b : β}

/-- Two computations one after the other succeed just in case both do. -/
theorem Except.bind_eq_ok_iff : x.bind f = .ok b ↔ ∃ a, x = .ok a ∧ f a = .ok b := by
  cases x <;> simp [Except.bind]

/-- Another text for the error does not matter to what succeeds. -/
theorem Except.mapError_eq_ok_iff : x.mapError g = .ok a ↔ x = .ok a := by
  cases x <;> simp [Except.mapError]

end

namespace Command

variable {env : Environment} {o : RunOptions} {c : Config} {name path text output : String}
  {words : List UInt16} {r : WordRange} {code : Nat}

/-! ## Settings and images -/

/-- The settings that a run starts from: the default ones, or those in its file of settings. -/
inductive RunOptions.Base (env : Environment) (o : RunOptions) : Config → Prop
  | default : o.config = none → Base env o {}
  | file {path : String} {bytes : ByteArray} {text : String} {c : Config} :
      o.config = some path → env.file path = .ok bytes → String.fromUTF8? bytes = some text →
      Config.parse text = .ok c → Base env o c

/-- The settings of a run: those that it starts from, overridden by the options and accepted. -/
def RunOptions.Settles (env : Environment) (o : RunOptions) (c : Config) : Prop :=
  ∃ base, o.Base env base ∧ o.override base = c ∧ c.validate = .ok ()

/-- The image of a run with its name: the built-in one, or the one in its image file. -/
inductive RunOptions.Provides (env : Environment) (o : RunOptions) : String → List UInt16 → Prop
  | builtIn : o.image = none → Provides env o "built-in fibonacci" Image.Fibonacci.image
  | file {path : String} {bytes : ByteArray} {text : String} {words : List UInt16} :
      o.image = some path → env.file path = .ok bytes → String.fromUTF8? bytes = some text →
      Image.parse text = .ok words → Provides env o path words

/-- A file is read as text just in case there is one and its bytes are valid UTF-8. -/
theorem text_eq_ok_iff : env.text path = .ok text ↔
    ∃ bytes, env.file path = .ok bytes ∧ String.fromUTF8? bytes = some text := by
  rw [Environment.text]
  cases env.file path with
  | error reason => simp [bind, Except.bind]
  | ok bytes => cases h : String.fromUTF8? bytes <;> simp [bind, Except.bind, h, pure, Except.pure,
      throw, throwThe, MonadExceptOf.throw]

/-- A file of settings is loaded just in case it can be read and its text is accepted. -/
theorem loadConfig_eq_ok_iff : loadConfig env path = .ok c ↔
    ∃ text, env.text path = .ok text ∧ Config.parse text = .ok c := by
  simp only [loadConfig, bind, Except.bind_eq_ok_iff, Except.mapError_eq_ok_iff]

/-- The image of a file is read in one go, with the same three conditions as a file of settings. -/
theorem ofFile_eq_ok_iff {contents : Except String ByteArray} :
    Image.ofFile contents.toOption = .ok words ↔ ∃ bytes text, contents = .ok bytes ∧
      String.fromUTF8? bytes = some text ∧ Image.parse text = .ok words := by
  cases contents with
  | error reason => simp [Image.ofFile, Except.toOption]
  | ok bytes =>
    cases h : String.fromUTF8? bytes <;> simp [Image.ofFile, Except.toOption, h]

/-- The settings read, overridden by the options, if they are then accepted. -/
def RunOptions.settle (o : RunOptions) (base : Config) : Except String Config :=
  ((o.override base).validate.mapError fun e => "Error: " ++ e.message).map fun _ => o.override base

/-- Without a file of settings the options override the default ones. -/
theorem settings_of_none (h : o.config = none) : o.settings env = o.settle {} := by
  rw [RunOptions.settings, h, RunOptions.settle]
  dsimp only [bind, Except.bind, pure, Except.pure]
  cases (o.override {}).validate <;> rfl

/-- With a file of settings the options override what is in it, once it is accepted. -/
theorem settings_of_some (h : o.config = some path) :
    o.settings env = (loadConfig env path).bind o.settle := by
  rw [RunOptions.settings, h]
  dsimp only [bind, Except.bind, pure, Except.pure]
  cases loadConfig env path with
  | error message => rfl
  | ok base =>
    dsimp only [RunOptions.settle]
    cases (o.override base).validate <;> rfl

/-- The options are applied first and the outcome is validated then. -/
theorem settle_eq_ok_iff {base : Config} :
    o.settle base = .ok c ↔ o.override base = c ∧ c.validate = .ok () := by
  rw [RunOptions.settle]
  cases h : (o.override base).validate with
  | error e =>
    refine iff_of_false nofun ?_
    rintro ⟨rfl, accepted⟩
    cases h.symm.trans accepted
  | ok u =>
    constructor
    · intro settled
      cases settled
      exact ⟨rfl, h⟩
    · rintro ⟨rfl, -⟩
      rfl

/-- The first stage of the program succeeds with just the settings that the run settles on. -/
theorem settings_eq_ok_iff : o.settings env = .ok c ↔ o.Settles env c := by
  constructor
  · intro h
    cases config : o.config with
    | none =>
      rw [settings_of_none config] at h
      exact ⟨{}, .default config, settle_eq_ok_iff.1 h⟩
    | some path =>
      rw [settings_of_some config] at h
      obtain ⟨base, loaded, settled⟩ := Except.bind_eq_ok_iff.1 h
      obtain ⟨text, read, parsed⟩ := loadConfig_eq_ok_iff.1 loaded
      obtain ⟨bytes, file, decoded⟩ := text_eq_ok_iff.1 read
      exact ⟨base, .file config file decoded parsed, settle_eq_ok_iff.1 settled⟩
  · rintro ⟨base, config | ⟨config, file, decoded, parsed⟩, settled⟩
    · rw [settings_of_none config]
      exact settle_eq_ok_iff.2 settled
    · rw [settings_of_some config, Except.bind_eq_ok_iff]
      have read := text_eq_ok_iff.2 ⟨_, file, decoded⟩
      exact ⟨base, loadConfig_eq_ok_iff.2 ⟨_, read, parsed⟩, settle_eq_ok_iff.2 settled⟩

/-- The second stage of the program succeeds with just the image that is provided for the run. -/
theorem loadImage_eq_ok_iff : o.loadImage env = .ok (name, words) ↔ o.Provides env name words := by
  rw [RunOptions.loadImage]
  constructor
  · intro h
    cases image : o.image with
    | none =>
      rw [image] at h
      cases h
      exact .builtIn image
    | some path =>
      rw [image] at h
      dsimp only at h
      cases read : Image.ofFile (env.file path).toOption with
      | error e => rw [read] at h; cases h
      | ok words =>
        rw [read] at h
        cases h
        obtain ⟨bytes, text, file, decoded, parsed⟩ := ofFile_eq_ok_iff.1 read
        exact .file image file decoded parsed
  · rintro (image | ⟨image, file, decoded, parsed⟩)
    · rw [image]
    · have read := ofFile_eq_ok_iff.2 ⟨_, _, file, decoded, parsed⟩
      rw [image]
      dsimp only
      rw [read]

/-! ## What is shown -/

/-- The line of the registers. -/
def registerLine (m : Machine) : String :=
  "[*] " ++ m.registers.text ++ "\n"

/-- The rows of a range of words; none if the range leaves memory. -/
def rangeRows (m : Memory) (r : WordRange) : String :=
  if r.stop.toNat ≤ memoryWords then
    dumpText r.start.toNat (m.words r.start.toNat r.stop.toNat)
  else ""

/-- What is shown of a run, without its last line: registers, report and dump. -/
def stateText (m : Machine) (r : WordRange) : String :=
  registerLine m ++ m.statistics.report ++ rangeRows m.memory r

/-- The last line that is shown of a run with the result, if there is one. -/
def lastLine : Except Failure Completion → String
  | .ok done => haltLine done
  | .error _ => ""

/-- The exit code of a run with the result. -/
def exitCode : Except Failure Completion → Nat
  | .ok _ => 0
  | .error _ => 1

/-- What a caller sees of a run: its exit code and its output. -/
def Transcript.seen (t : Transcript) : Nat × String :=
  (t.code, t.output)

/-- What a caller sees of the program: its exit code and its output. -/
def Outcome.seen (t : Outcome) : Nat × String :=
  (t.code, t.output)

/-- A new simulator with the image loaded. -/
def started (c : Config) (words : List UInt16) : Simulator :=
  ((Simulator.new c).load words).2

/-- What a run starts from if the image fits: memory with the image, and the settings. -/
theorem started_of_fits (fits : Memory.Fits c.origin words.length) : started c words =
    { machine := Simulator.loaded words c.origin c.traceInstructions
      origin := c.origin
      maxSteps := c.maxSteps } := by
  rw [started, Simulator.load_of_fits (s := Simulator.new c) fits]
  rfl

/-- The ways through the stages of a run, each with the exit code and the output. -/
inductive Goes (env : Environment) (o : RunOptions) : Nat → String → Prop
  /-- The settings cannot be read or are not accepted. -/
  | refused : (¬ ∃ c, o.Settles env c) → Goes env o 1 ""
  /-- The image cannot be read. -/
  | unprovided {c : Config} : o.Settles env c → (¬ ∃ name words, o.Provides env name words) →
      Goes env o 1 ""
  /-- There is no room for the image. -/
  | tooLong {c : Config} {name : String} {words : List UInt16} :
      o.Settles env c → o.Provides env name words → ¬ Memory.Fits c.origin words.length →
      Goes env o 1 (imageLine name words c)
  /-- The machine ran, to a halt, a fault or the end of its budget. -/
  | ran {c : Config} {name : String} {words : List UInt16} :
      o.Settles env c → o.Provides env name words → Memory.Fits c.origin words.length →
      Goes env o (exitCode (started c words).run.1) (imageLine name words c ++
        (stateText (started c words).run.2.machine (o.dump.getD defaultDump) ++
          lastLine (started c words).run.1))

/-- The stage at which the settings of a run are known. -/
theorem seen_run_of_settles (settles : o.Settles env c) :
    (run env o).seen = (runConfigured env o c).seen := by
  rw [run, settings_eq_ok_iff.2 settles]
  rfl

/-- Without settings nothing is shown. -/
theorem seen_run_of_not_settles (refused : ¬ ∃ c, o.Settles env c) :
    (run env o).seen = (1, "") := by
  rw [run]
  cases settings : o.settings env with
  | error message => rfl
  | ok c => exact absurd ⟨c, settings_eq_ok_iff.1 settings⟩ refused

/-- Without an image nothing is shown. -/
theorem seen_run_of_not_provides (unprovided : ¬ ∃ name words, o.Provides env name words) :
    (run env o).seen = (1, "") := by
  by_cases settled : ∃ c, o.Settles env c
  · obtain ⟨c, settles⟩ := settled
    rw [seen_run_of_settles settles, runConfigured]
    cases image : o.loadImage env with
    | error message => rfl
    | ok provided => exact absurd ⟨_, _, loadImage_eq_ok_iff.1 image⟩ unprovided
  · exact seen_run_of_not_settles settled

/-- The options with another dump range and another trace switch. -/
def RunOptions.showing (o : RunOptions) (dump : Option WordRange) (trace : Bool) : RunOptions :=
  { o with dump, trace }

/-- The settings with another trace switch. -/
def withTracing (c : Config) (t : Bool) : Config :=
  { c with traceInstructions := t }

/-- Dump range and trace switch are no part of what is accepted, and of the settings they change the
trace switch alone. -/
theorem RunOptions.Settles.showing (h : o.Settles env c) (dump : Option WordRange) (trace : Bool) :
    ∃ t, (o.showing dump trace).Settles env (withTracing c t) := by
  obtain ⟨base, source, rfl, accepted⟩ := h
  refine ⟨base.traceInstructions || trace, base, ?_, rfl, ?_⟩
  · cases source with
    | default config => exact .default config
    | file config read decoded parsed => exact .file config read decoded parsed
  · exact Config.validate_eq_ok_iff.2 (Config.validate_eq_ok_iff.1 accepted)

/-- They are no part of what the image is read from. -/
theorem RunOptions.Provides.showing (h : o.Provides env name words) (dump : Option WordRange)
    (trace : Bool) : (o.showing dump trace).Provides env name words := by
  cases h with
  | builtIn image => exact .builtIn image
  | file image read decoded parsed => exact .file image read decoded parsed

/-- The trace switch changes neither the result of a run nor what it leaves, but for the switch
itself. -/
theorem run_started_withTracing (c : Config) (words : List UInt16) (t : Bool) :
    (started (withTracing c t) words).run =
      ((started c words).run.1, (started c words).run.2.setTracing t) := by
  have new : Simulator.new (withTracing c t) = (Simulator.new c).setTracing t := rfl
  rw [started, new, Simulator.load_setTracing, Simulator.run_setTracing]
  rfl

/-- A way stays the same way with another dump range and another trace switch, and the output
changes in the rows of the dump alone. -/
theorem Goes.showing (goes : Goes env o code output) : ∃ first rows last,
    ((∀ r, rows r = "") ∨ ∃ m, rows = rangeRows m) ∧
    ∀ dump trace, Goes env (o.showing dump trace) code
      (first ++ (rows (dump.getD defaultDump) ++ last)) := by
  cases goes with
  | refused refused =>
    refine ⟨"", fun _ => "", "", .inl fun _ => rfl, fun dump trace => .refused ?_⟩
    rintro ⟨c, settles⟩
    -- with the dump range and the switch set back the options are what they were
    obtain ⟨t, settles⟩ := settles.showing o.dump o.trace
    exact refused ⟨_, settles⟩
  | unprovided settles unprovided =>
    refine ⟨"", fun _ => "", "", .inl fun _ => rfl, fun dump trace => ?_⟩
    obtain ⟨t, settles⟩ := settles.showing dump trace
    refine .unprovided settles ?_
    rintro ⟨name, words, provides⟩
    exact unprovided ⟨name, words, provides.showing o.dump o.trace⟩
  | @tooLong c name words settles provides long =>
    refine ⟨imageLine name words c, fun _ => "", "", .inl fun _ => rfl, fun dump trace => ?_⟩
    obtain ⟨t, settles⟩ := settles.showing dump trace
    have long : ¬ Memory.Fits (withTracing c t).origin words.length := long
    have way := Goes.tooLong settles (provides.showing dump trace) long
    rw [String.append_empty, String.append_empty]
    exact way
  | @ran c name words settles provides fits =>
    refine ⟨imageLine name words c ++ (registerLine (started c words).run.2.machine ++
      (started c words).run.2.machine.statistics.report),
      rangeRows (started c words).run.2.machine.memory, lastLine (started c words).run.1,
      .inr ⟨_, rfl⟩, fun dump trace => ?_⟩
    obtain ⟨t, settles⟩ := settles.showing dump trace
    have fits : Memory.Fits (withTracing c t).origin words.length := fits
    have way := Goes.ran settles (provides.showing dump trace) fits
    rw [run_started_withTracing, stateText, String.append_assoc] at way
    rw [String.append_assoc]
    exact way

end Command
end Accumulator
