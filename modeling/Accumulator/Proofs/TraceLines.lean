import Accumulator.Proofs.Executions
import Accumulator.Proofs.Session
import Accumulator.Proofs.Spelling

/-!
# The trace is the path of the execution

A line of the error output belongs to the trace if it starts like the announcement of an execution
(`isTraceLine`). No other event and no message starts like that, and while instructions are traced
the filter lets every announcement through. So the trace lines of a run are the executions on the
log of its machine, one line each (`traceLines_run_of_fits`), and `trace_law` says of these what
they tell: the machine's path from its first instruction to the last that it decoded.
-/

namespace Accumulator

variable {e : Event} {s t : String} {a : Char}

/-! ## How lines start -/

/-- The line tells of the execution of an instruction: program counter, word and accumulator in
decimal, and the instruction as it is spelled. -/
def IsExecutionLine (pc : Address) (word : UInt16) (i : Instruction) (acc : UInt16)
    (line : String) : Prop :=
  ∃ inst, i.Spelled inst ∧ line = "TRACE execute pc=" ++ toString pc.value.toNat ++ " word=" ++
    toString word.toNat ++ " inst=" ++ inst ++ " acc=" ++ toString acc.toNat

/-- Does the line belong to the trace? -/
def isTraceLine (line : String) : Bool :=
  "TRACE execute ".toList.isPrefixOf line.toList

/-- A text that is not empty gives its first character to what is put behind it. -/
theorem head?_append (h : s.toList.head? = some a) (t : String) :
    (s ++ t).toList.head? = some a := by
  rw [String.toList_append, List.head?_append, h]
  rfl

/-- A line of the trace starts with a capital T. -/
theorem isTraceLine_of_head? (h : s.toList.head? ≠ some 'T') : isTraceLine s = false := by
  rw [isTraceLine, Bool.eq_false_iff, ne_eq, List.isPrefixOf_iff_prefix]
  rintro ⟨rest, starts⟩
  rw [← starts] at h
  exact h rfl

/-- What starts with another character is no line of the trace. -/
theorem isTraceLine_append (h : s.toList.head? = some a) (other : a ≠ 'T') (t : String) :
    isTraceLine (s ++ t) = false := by
  refine isTraceLine_of_head? ?_
  rw [head?_append h]
  exact fun same => other (Option.some.inj same)

/-- A line that tells of an execution belongs to the trace. -/
theorem IsExecutionLine.isTraceLine {pc : Address} {word acc : UInt16} {i : Instruction}
    (h : IsExecutionLine pc word i acc s) : isTraceLine s = true := by
  obtain ⟨inst, -, rfl⟩ := h
  have start : "TRACE execute pc=" = "TRACE execute " ++ "pc=" := by decide +kernel
  rw [Accumulator.isTraceLine, List.isPrefixOf_iff_prefix]
  simp only [start, String.append_assoc, String.toList_append]
  exact List.prefix_append _ _

namespace Event

/-- The announcement of an execution tells of it. -/
theorem isExecutionLine_line (pc : Address) (word : UInt16) (i : Instruction) (acc : UInt16) :
    IsExecutionLine pc word i acc (execute pc word i acc).line := by
  refine ⟨i.text, i.spelled_text, ?_⟩
  have start : "trace".toUpper ++ " " ++ "execute" ++ (" " ++ "pc" ++ "=") =
      "TRACE execute pc=" := by decide +kernel
  have second : " " ++ "word" ++ "=" = " word=" := by decide +kernel
  have third : " " ++ "inst" ++ "=" = " inst=" := by decide +kernel
  have fourth : " " ++ "acc" ++ "=" = " acc=" := by decide +kernel
  simp only [← second, ← third, ← fourth, ← String.append_assoc, ← start]
  simp only [line, level, LogLevel.name, message, fields, List.map, String.join, List.foldl,
    String.append_assoc, String.empty_append]

/-- The line of an event that announces no execution is no line of the trace. -/
theorem isTraceLine_line (h : e.isExecution = false) : isTraceLine e.line = false := by
  have debug : "debug".toUpper.toList.head? = some 'D' := by decide +kernel
  have info : "info".toUpper.toList.head? = some 'I' := by decide +kernel
  have warn : "warn".toUpper.toList.head? = some 'W' := by decide +kernel
  obtain ⟨a, head, other⟩ : ∃ a, e.level.name.toUpper.toList.head? = some a ∧ a ≠ 'T' := by
    cases e with
    | execute => cases h
    | configured | imageLoaded | halted => exact ⟨'D', debug, by decide⟩
    | runComplete => exact ⟨'I', info, by decide⟩
    | faulted | runFaulted | runStopped => exact ⟨'W', warn, by decide⟩
  rw [line, String.append_assoc, String.append_assoc]
  exact isTraceLine_append head other _

end Event

/-- While instructions are traced every execution is written. -/
theorem LogFilter.admits_of_isExecution (h : e.isExecution = true) :
    LogFilter.tracing.admits e = true := by
  cases e with
  | execute pc word i acc =>
    have source : "accsim_core".isPrefixOf "accsim_core::core::machine::execution" = true := by
      decide +kernel
    have concerned : (Directive.ofSource (some "accsim_core") .trace).concerns
        (.execute pc word i acc) = true := by
      simp [Directive.concerns, Directive.ofSource, Event.source, source]
    simp only [admits, deciding?, tracing, List.filter, concerned]
    rfl
  | _ => cases h

namespace Command

variable {env : Environment} {o : RunOptions} {c : Config} {name : String} {words : List UInt16}
  {filter : LogFilter} {notices notices' : List Notice} {events : List Event}

/-! ## Notices -/

/-- The lines of the trace on the error output. -/
def Outcome.traceLines (t : Outcome) : List String :=
  t.errors.filter isTraceLine

/-- The lines of the trace among those that a filter lets through. -/
def traced (filter : LogFilter) (notices : List Notice) : List String :=
  (notices.filterMap (Notice.line? filter)).filter isTraceLine

/-- Does the notice stay out of the trace? -/
def Notice.isQuiet : Notice → Bool
  | .event e => !e.isExecution
  | .message text => !isTraceLine text

theorem traced_append (filter : LogFilter) (notices notices' : List Notice) :
    traced filter (notices ++ notices') = traced filter notices ++ traced filter notices' := by
  rw [traced, List.filterMap_append, List.filter_append]
  rfl

/-- Quiet notices leave no line in the trace. -/
theorem traced_of_quiet (h : ∀ x ∈ notices, x.isQuiet = true) : traced filter notices = [] := by
  rw [traced, List.filter_eq_nil_iff]
  intro line written
  obtain ⟨x, hx, shown⟩ := List.mem_filterMap.1 written
  have quiet := h x hx
  rw [Bool.not_eq_true]
  cases x with
  | event e =>
    rw [Notice.line?] at shown
    split at shown
    · cases shown
      exact Event.isTraceLine_line (by simpa [Notice.isQuiet] using quiet)
    · cases shown
  | message text =>
    cases shown
    simpa [Notice.isQuiet] using quiet

/-- The line of an execution belongs to the trace. -/
theorem isTraceLine_line_of_isExecution {e : Event} (h : e.isExecution = true) :
    isTraceLine e.line = true := by
  cases e with
  | execute pc word i acc => exact (Event.isExecutionLine_line pc word i acc).isTraceLine
  | _ => cases h

/-- While instructions are traced the trace of a log consists of its executions. -/
theorem traced_events (events : List Event) : traced .tracing (events.map .event) =
    (events.filter Event.isExecution).map Event.line := by
  induction events with
  | nil => rfl
  | cons e events ih =>
    have split : traced .tracing ((e :: events).map .event) =
        traced .tracing [.event e] ++ traced .tracing (events.map .event) :=
      traced_append .tracing [.event e] _
    rw [split, ih]
    cases announces : e.isExecution with
    | true =>
      rw [List.filter_cons_of_pos announces, traced, List.filterMap_cons_some (b := e.line),
        List.filterMap_nil, List.filter_cons_of_pos (isTraceLine_line_of_isExecution announces)]
      · rfl
      · rw [Notice.line?, if_pos (LogFilter.admits_of_isExecution announces)]
    | false =>
      rw [List.filter_cons_of_neg (Bool.not_eq_true _ ▸ announces), traced_of_quiet]
      · rfl
      · intro x hx
        rw [List.mem_singleton.1 hx, Notice.isQuiet, announces]
        rfl

/-- A message is quiet if it starts with a character other than a capital T. -/
theorem Notice.isQuiet_message (h : s.toList.head? = some a) (other : a ≠ 'T') (t : String) :
    (Notice.message (s ++ t)).isQuiet = true := by
  rw [isQuiet, isTraceLine_append h other]
  rfl

/-! ## Runs -/

/-- Behind the log of its machine a simulator logs how the run ended. -/
theorem exists_runEvents (s : Simulator) : ∃ e, e.isExecution = false ∧
    s.runEvents = s.machine.runEvents s.maxSteps.toNat ++ [e] := by
  rw [Simulator.runEvents]
  obtain ⟨result, left⟩ := s.run
  cases result with
  | ok done => exact ⟨_, rfl, rfl⟩
  | error failure =>
    dsimp only
    split
    · exact ⟨_, rfl, rfl⟩
    · exact ⟨_, rfl, rfl⟩

/-- The message about a dump range outside memory is quiet. -/
theorem isQuiet_of_showDump {m : Memory} {r : WordRange} (h : showDump m r = .error s) :
    (Notice.message s).isQuiet = true := by
  have outside : "[!] Dump range 0x".toList.head? = some '[' := by decide
  rw [showDump] at h
  split at h
  · cases h
  · cases h
    simp only [String.append_assoc]
    exact Notice.isQuiet_message outside (by decide) _

theorem maxSteps_started (fits : Memory.Fits c.origin words.length) :
    (started c words).maxSteps = c.maxSteps := by
  rw [started_of_fits fits]

theorem tracing_started (fits : Memory.Fits c.origin words.length) :
    (started c words).machine.tracing = c.traceInstructions := by
  rw [started_of_fits fits]
  rfl

theorem live_started (fits : Memory.Fits c.origin words.length) :
    (started c words).machine.phase.isTerminal = false := by
  rw [started_of_fits fits]
  rfl

/-- A run of the program counts the instructions that its machine retires. -/
theorem toNat_steps_run_started (fits : Memory.Fits c.origin words.length) :
    (started c words).run.2.machine.statistics.steps.toNat =
      (started c words).machine.retirements c.maxSteps.toNat := by
  have zero : (started c words).machine.statistics.steps.toNat = 0 := by
    rw [started_of_fits fits]
    rfl
  have few := Machine.retirements_le c.maxSteps.toNat (started c words).machine
  have budget := c.maxSteps.toNat_lt
  rw [Simulator.run_snd, maxSteps_started fits, Machine.toNat_steps_after (by omega), zero,
    Nat.zero_add]

/-- What a loaded simulator notes besides the log of its machine stays out of the trace. -/
theorem exists_notices_runLoaded (s : Simulator) (r : WordRange) : ∃ rest,
    (runLoaded s r).notices = (s.machine.runEvents s.maxSteps.toNat).map .event ++ rest ∧
    ∀ x ∈ rest, x.isQuiet = true := by
  have warning : "[!] ".toList.head? = some '[' := by decide
  obtain ⟨e, other, log⟩ := exists_runEvents s
  have ended : (Notice.event e).isQuiet = true := by rw [Notice.isQuiet, other]; rfl
  have reason (f : Failure) : (Notice.message ("[!] " ++ f.message)).isQuiet = true :=
    Notice.isQuiet_message warning (by decide) _
  have blank : (Notice.message "").isQuiet = true := by decide
  rw [runLoaded, log]
  obtain ⟨result, left⟩ := s.run
  cases dumped : showDump left.machine.memory r with
  | ok text =>
    cases result with
    | ok done => exact ⟨[.event e], by simp [dumped], by simp [ended]⟩
    | error failure =>
      exact ⟨[.event e, .message "", .message ("[!] " ++ failure.message)], by simp [dumped],
        by simp [ended, blank, reason]⟩
  | error message =>
    have dump := isQuiet_of_showDump dumped
    cases result with
    | ok done => exact ⟨[.event e, .message message], by simp [dumped], by simp [ended, dump]⟩
    | error failure =>
      exact ⟨[.event e, .message message, .message "", .message ("[!] " ++ failure.message)],
        by simp [dumped], by simp [ended, dump, blank, reason]⟩

/-- **The trace lines of a run** are the executions on the log of its machine. -/
theorem traceLines_run_of_fits (settles : o.Settles env c) (provides : o.Provides env name words)
    (fits : Memory.Fits c.origin words.length) : (run env o).traceLines =
      ((started c words).machine.executions c.maxSteps.toNat).map Event.line := by
  have ran : (run env o).traceLines = traced (.choose c.traceInstructions env.logFilter)
      ([.event (.configured c), .event (.imageLoaded c.origin words.length)] ++
        (runLoaded (started c words) (o.dump.getD defaultDump)).notices) := by
    rw [run, settings_eq_ok_iff.2 settles]
    dsimp only
    rw [runConfigured, loadImage_eq_ok_iff.2 provides]
    dsimp only
    rw [runImage, started, Simulator.loadEvents,
      Simulator.load_of_fits (s := Simulator.new c) fits]
    rfl
  obtain ⟨rest, noted, quiet⟩ :=
    exists_notices_runLoaded (started c words) (o.dump.getD defaultDump)
  have front : ∀ x ∈ [Notice.event (.configured c), .event (.imageLoaded c.origin words.length)],
      x.isQuiet = true := by
    simp [Notice.isQuiet, Event.isExecution]
  rw [ran, noted, maxSteps_started fits, traced_append, traced_append, traced_of_quiet front,
    traced_of_quiet quiet, List.nil_append, List.append_nil]
  cases on : c.traceInstructions with
  | true => exact traced_events _
  | false =>
    have off := (tracing_started fits).trans on
    have none := Machine.executions_of_not_tracing off c.maxSteps.toNat
    rw [none]
    refine traced_of_quiet fun x hx => ?_
    obtain ⟨e, he, rfl⟩ := List.mem_map.1 hx
    have other := List.filter_eq_nil_iff.1 none e he
    rw [Notice.isQuiet, Bool.eq_false_of_not_eq_true other]
    rfl

/-! ## Runs that do not reach the machine -/

/-- A message about overridden settings that are not accepted starts with a capital E. -/
theorem head?_of_settle {base : Config} (h : o.settle base = .error s) :
    s.toList.head? = some 'E' := by
  have label : "Error: ".toList.head? = some 'E' := by decide
  rw [RunOptions.settle] at h
  cases accepted : (o.override base).validate with
  | ok _ =>
    rw [accepted] at h
    cases h
  | error e =>
    rw [accepted] at h
    cases h
    exact head?_append label _

/-- So does a message about a file of settings. -/
theorem head?_of_loadConfig {path : String} (h : loadConfig env path = .error s) :
    s.toList.head? = some 'E' := by
  have reading : "Error reading config ".toList.head? = some 'E' := by decide
  have inside : "Error in config ".toList.head? = some 'E' := by decide
  rw [loadConfig] at h
  cases read : env.text path with
  | error reason =>
    rw [read] at h
    cases h
    simp only [String.append_assoc]
    exact head?_append reading _
  | ok text =>
    rw [read] at h
    cases parsed : Config.parse text with
    | ok c =>
      simp [Except.mapError, bind, Except.bind, parsed] at h
    | error e =>
      simp only [Except.mapError, bind, Except.bind, parsed, Except.error.injEq] at h
      subst h
      simp only [String.append_assoc]
      exact head?_append inside _

/-- Every message about settings starts in the same way. -/
theorem head?_of_settings (h : o.settings env = .error s) : s.toList.head? = some 'E' := by
  cases config : o.config with
  | none =>
    rw [settings_of_none config] at h
    exact head?_of_settle h
  | some path =>
    rw [settings_of_some config] at h
    cases loaded : loadConfig env path with
    | error message =>
      rw [loaded] at h
      cases h
      exact head?_of_loadConfig loaded
    | ok base =>
      rw [loaded] at h
      exact head?_of_settle h

/-- The message about an image that cannot be read is quiet. -/
theorem isQuiet_of_loadImage (h : o.loadImage env = .error s) :
    (Notice.message s).isQuiet = true := by
  have label : "Error loading ".toList.head? = some 'E' := by decide
  rw [RunOptions.loadImage] at h
  split at h
  · cases h
  · split at h
    · cases h
    · cases h
      simp only [String.append_assoc]
      exact Notice.isQuiet_message label (by decide) _

/-- Without settings, without an image or without room for it there is no trace. -/
theorem traceLines_run_of_not_ran (h : ¬ ∃ c name words, o.Settles env c ∧
    o.Provides env name words ∧ Memory.Fits c.origin words.length) :
    (run env o).traceLines = [] := by
  have label : "Error: ".toList.head? = some 'E' := by decide
  have configured (c : Config) : (Notice.event (.configured c)).isQuiet = true := rfl
  have failed (f : Failure) : (Notice.message ("Error: " ++ f.message)).isQuiet = true :=
    Notice.isQuiet_message label (by decide) _
  rw [run]
  cases settings : o.settings env with
  | error message =>
    have quiet : isTraceLine message = false :=
      isTraceLine_of_head? (by rw [head?_of_settings settings]; decide)
    simp [Outcome.traceLines, quiet]
  | ok c =>
    change traced _ (runConfigured env o c).notices = []
    refine traced_of_quiet ?_
    rw [runConfigured]
    cases image : o.loadImage env with
    | error message => simp [configured, isQuiet_of_loadImage image]
    | ok provided =>
      have long : ¬ Memory.Fits c.origin provided.2.length := fun fits =>
        h ⟨c, _, _, settings_eq_ok_iff.1 settings, loadImage_eq_ok_iff.1 image, fits⟩
      dsimp only
      rw [runImage, Simulator.load_of_not_fits (s := Simulator.new c) long]
      simp [configured, failed]

/-! ## The law -/

/-- A run of a simulator ends in a wild fault just in case it leaves its machine with one. -/
theorem isWild_iff (s : Simulator) : (s.machine.after s.maxSteps.toNat).phase.isWild = true ↔
    ∃ a access, access ≠ .fetch ∧ s.run.1 = .error (.fault (.outOfBounds a access)) := by
  rw [Simulator.run, Machine.runUntilHalt_eq, Machine.status]
  cases (s.machine.after s.maxSteps.toNat).phase with
  | ready | running | halted => simp [Phase.isWild, Except.map]
  | faulted f =>
    cases f with
    | invalidOpcode pc word => simp [Phase.isWild, Fault.isWild, Except.map]
    | outOfBounds a access => cases access <;> simp [Phase.isWild, Fault.isWild, Except.map]

/-- A fault that a simulator reports is the one that its machine was stopped by. -/
theorem run_fst_eq_fault {s : Simulator} {f : Fault} (h : s.run.1 = .error (.fault f)) :
    (s.machine.runUntilHalt s.maxSteps.toNat).1 = .error (.fault f) := by
  rw [Simulator.run] at h
  generalize s.machine.runUntilHalt s.maxSteps.toNat = answer at h ⊢
  obtain ⟨_ | steps, left⟩ := answer
  · cases h
    rfl
  · cases h

section
variable (settles : o.Settles env c) (provides : o.Provides env name words)
  (fits : Memory.Fits c.origin words.length) (on : c.traceInstructions = true)

include settles provides fits on

/-- A trace line tells of the machine after as many steps as lines stand in front of it. -/
theorem getElem?_traceLines {k : Nat} {line : String}
    (h : (run env o).traceLines[k]? = some line) :
    ∃ i, ((started c words).machine.run k).2.Decodes i ∧
      IsExecutionLine ((started c words).machine.run k).2.registers.pc
        ((started c words).machine.run k).2.word i
        ((started c words).machine.run k).2.registers.acc line := by
  rw [traceLines_run_of_fits settles provides fits, List.getElem?_map,
    Option.map_eq_some_iff] at h
  obtain ⟨e, he, rfl⟩ := h
  obtain ⟨i, decodes, rfl⟩ := Machine.getElem?_executions ((tracing_started fits).trans on) he
  rw [Machine.run_eq]
  exact ⟨i, decodes, Event.isExecutionLine_line _ _ _ _⟩

/-- There is a trace line for each retired instruction, and one more behind a wild fault. -/
theorem length_traceLines : (run env o).traceLines.length =
    (started c words).run.2.machine.statistics.steps.toNat +
      if ((started c words).machine.after c.maxSteps.toNat).phase.isWild then 1 else 0 := by
  have tracing := (tracing_started fits).trans on
  rw [traceLines_run_of_fits settles provides fits, List.length_map,
    Machine.length_executions tracing (live_started fits), toNat_steps_run_started fits]

end

/-- **The trace is the path of the execution.** With tracing on, by the option or by the settings,
the `k`-th trace line tells the program counter, word, instruction and accumulator of the machine
after `k` steps, the instruction as it is spelled. There is one line for each retired instruction,
in order, and one more just in case the run ends with a read or a write outside memory: the line of
the instruction that met the fault. There is no trace line unless tracing is on and a machine runs,
whatever log filter is asked for. -/
theorem trace_law :
    (∀ (env : Environment) (o : RunOptions) (base : Config) (name : String) (words : List UInt16),
      o.Base env base → (o.override base).validate = .ok () → o.Provides env name words →
      Memory.Fits (o.override base).origin words.length →
      (o.trace = true ∨ base.traceInstructions = true) →
      let s := started (o.override base) words
      let steps := s.run.2.machine.statistics.steps.toNat
      let shown := (run env o).traceLines
      (∀ (k : Nat) (line : String), shown[k]? = some line →
        ∃ i, (s.machine.run k).2.Decodes i ∧
          IsExecutionLine (s.machine.run k).2.registers.pc (s.machine.run k).2.word i
            (s.machine.run k).2.registers.acc line) ∧
      (∀ k < steps, (s.machine.run k).2.retires = true) ∧
      (∀ a access, access ≠ .fetch → s.run.1 = .error (.fault (.outOfBounds a access)) →
        shown.length = steps + 1 ∧
          (s.machine.run steps).2.step.1 = .fault (.outOfBounds a access)) ∧
      ((¬ ∃ a access, access ≠ .fetch ∧ s.run.1 = .error (.fault (.outOfBounds a access))) →
        shown.length = steps)) ∧
    ∀ (env : Environment) (o : RunOptions), (run env o).traceLines ≠ [] →
      ∃ base name words, o.Base env base ∧ (o.override base).validate = .ok () ∧
        o.Provides env name words ∧ Memory.Fits (o.override base).origin words.length ∧
        (o.trace = true ∨ base.traceInstructions = true) := by
  refine ⟨fun env o base name words source accepted provides fits on => ?_, fun env o shown => ?_⟩
  · intro s steps shown
    have settles : o.Settles env (o.override base) := ⟨base, source, rfl, accepted⟩
    have traced : (o.override base).traceInstructions = true := by
      simpa [RunOptions.override, or_comm] using on
    have length := length_traceLines settles provides fits traced
    have wild := isWild_iff s
    rw [maxSteps_started fits] at wild
    have count : steps = s.machine.retirements (o.override base).maxSteps.toNat :=
      toNat_steps_run_started fits
    refine ⟨fun k line => getElem?_traceLines settles provides fits traced, fun k h => ?_,
      fun a access other faulted => ⟨?_, ?_⟩, fun h => ?_⟩
    · rw [Machine.run_eq]
      exact Machine.retires_of_lt_retirements (count ▸ h)
    · exact length.trans (congrArg (steps + ·) (if_pos (wild.2 ⟨a, access, other, faulted⟩)))
    · obtain ⟨k, hk, stops, blocked⟩ :=
        Machine.runUntilHalt_fault (live_started fits) (run_fst_eq_fault faulted)
      rw [maxSteps_started fits] at hk
      rw [count, stops.retirements_of_fault hk blocked, Machine.run_eq,
        Machine.step_of_live stops.live, blocked.advance]
    · exact length.trans (congrArg (steps + ·) (if_neg (mt wild.1 h)))
  · by_cases ran : ∃ c name words, o.Settles env c ∧ o.Provides env name words ∧
      Memory.Fits c.origin words.length
    · obtain ⟨_, name, words, settles, provides, fits⟩ := ran
      rw [traceLines_run_of_fits settles provides fits] at shown
      obtain ⟨base, source, rfl, accepted⟩ := settles
      refine ⟨base, name, words, source, accepted, provides, fits, ?_⟩
      by_contra off
      have switch : (o.override base).traceInstructions = false := by
        simpa [RunOptions.override, and_comm] using off
      rw [Machine.executions_of_not_tracing ((tracing_started fits).trans switch)] at shown
      exact shown rfl
    · exact absurd (traceLines_run_of_not_ran ran) shown

/-- A traced run of a no-op in front of an increment through a pointer cell that holds `0x1234`. -/
theorem trace_law_wildIncrement :
    let env : Environment := ⟨fun _ => .ok "F200 6305 0 0 0 1234".toUTF8, some "off"⟩
    let o : RunOptions := { image := "wild.hex", trace := true }
    let words : List UInt16 := [0xF200, 0x6305, 0, 0, 0, 0x1234]
    (o.Base env {} ∧ (o.override {}).validate = .ok () ∧ o.Provides env "wild.hex" words ∧
      Memory.Fits (o.override {}).origin words.length ∧ o.trace = true) ∧
    (run env o).traceLines.length = 2 := by
  intro env o words
  have source : o.Base env {} := .default rfl
  have parsed : Image.parse "F200 6305 0 0 0 1234" = .ok words := by decide +kernel
  have provides : o.Provides env "wild.hex" words :=
    .file rfl rfl (dif_pos "F200 6305 0 0 0 1234".isValidUTF8) parsed
  have fits : Memory.Fits (o.override {}).origin words.length := by constructor <;> decide
  have faulted : (started (o.override {}) words).run.1 =
      .error (.fault (.outOfBounds ⟨0x1234⟩ .read)) := by decide +kernel
  have steps : (started (o.override {}) words).run.2.machine.statistics.steps.toNat = 1 := by
    decide +kernel
  obtain ⟨-, -, wild, -⟩ := trace_law.1 env o {} _ words source rfl provides fits (.inl rfl)
  have length := (wild ⟨0x1234⟩ .read nofun faulted).1
  rw [steps] at length
  exact ⟨⟨source, rfl, provides, fits, rfl⟩, length⟩

end Command
end Accumulator
