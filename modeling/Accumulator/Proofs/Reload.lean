import Accumulator.Proofs.Placement
import Accumulator.Proofs.Requests

/-!
# Loading and resetting forget what ran before

A load resets the machine before it does anything else, and no request changes the origin or the
budget of a simulator. So behind any requests a load answers and leaves what it does on a new
simulator of the same settings, down to the trace switch, which stays as it was last set
(`load_behind`). As the switch shows in no other answer, nothing that is asked later tells the two
simulators apart (`load_forgets`).
-/

namespace Accumulator

namespace Simulator

variable {s s' : Simulator}

/-! ## The settings stay -/

/-- No request sets the origin or the budget. -/
theorem Request.settings_perform (r : Request) (s : Simulator) :
    (r.perform s).origin = s.origin ∧ (r.perform s).maxSteps = s.maxSteps := by
  cases r with
  | load image =>
    by_cases h : Memory.Fits s.origin image.length
    · rw [perform, load_of_fits h]
      exact ⟨rfl, rfl⟩
    · rw [perform, load_of_not_fits h]
      exact ⟨rfl, rfl⟩
  | run | call _ | read _ | range _ _ | status | registers | phase | statistics | tracing | origin
  | maxSteps => exact ⟨rfl, rfl⟩

/-- Requests leave the settings of a simulator. -/
theorem settings_behind (requests : List Request) (s : Simulator) :
    (s.behind requests).origin = s.origin ∧ (s.behind requests).maxSteps = s.maxSteps := by
  induction requests generalizing s with
  | nil => exact ⟨rfl, rfl⟩
  | cons r rest ih =>
    obtain ⟨origin, maxSteps⟩ := ih (r.perform s)
    obtain ⟨origin', maxSteps'⟩ := r.settings_perform s
    exact ⟨origin.trans origin', maxSteps.trans maxSteps'⟩

/-! ## A load behind any requests -/

/-- The trace switch as it was last set by requests to a new simulator, or by its settings. -/
def lastTracing (c : Config) (requests : List Request) : Bool :=
  requests.foldl Request.tracingBehind c.traceInstructions

/-- Of a simulator a load takes the settings and the trace switch alone. -/
theorem load_congr (origin : s.origin = s'.origin) (maxSteps : s.maxSteps = s'.maxSteps)
    (tracing : s.machine.tracing = s'.machine.tracing) (image : List UInt16) :
    s.load image = s'.load image := by
  have reset : s.machine.reset = s'.machine.reset := by rw [Machine.reset, Machine.reset, tracing]
  by_cases h : Memory.Fits s.origin image.length
  · rw [load_of_fits h, load_of_fits (origin ▸ h), origin, maxSteps, tracing]
  · rw [load_of_not_fits h, load_of_not_fits (origin ▸ h), origin, maxSteps, reset]

/-- **A load behind any requests is the load of a new simulator**, but for the switch. -/
theorem load_behind (c : Config) (requests : List Request) (image : List UInt16) :
    ((new c).behind requests).load image = (((new c).load image).1,
      ((new c).load image).2.setTracing (lastTracing c requests)) := by
  obtain ⟨origin, maxSteps⟩ := settings_behind requests (new c)
  rw [← load_setTracing]
  refine load_congr ?_ ?_ ?_ image
  · exact origin
  · exact maxSteps
  · exact tracing_behind requests (new c)

/-- The image fits behind the origin of the settings if they are accepted and there is room. -/
theorem fits_iff {c : Config} {length : Nat} : Memory.Fits c.origin length ↔
    c.validate = .ok () ∧ length ≤ memoryWords - c.origin.value.toNat := by
  rw [Config.validate_eq_ok_iff, Memory.Fits]
  constructor <;> rintro ⟨inside, room⟩ <;> exact ⟨inside, by omega⟩

/-- **Nothing of what ran before shows behind a load or a reset.** Behind any requests to a new
simulator, a load answers what it answers on the new simulator, and leaves what it leaves there but
for the trace switch, which is as it was last set; so later requests are answered alike on both.
The load succeeds just in case the settings are accepted and the image has room behind the origin.
Then the machine is new but for its program counter, which is the origin, and its memory, which is
the image behind the origin and zero elsewhere; otherwise the machine is new. A reset makes it new
as well, also on a machine of its own. -/
theorem load_forgets (c : Config) (requests : List Request) (image : List UInt16) :
    ((new c).behind requests).load image = (((new c).load image).1,
      ((new c).load image).2.setTracing (lastTracing c requests)) ∧
    (∀ later, .tracing ∉ later → answers later (((new c).behind requests).load image).2 =
      answers later ((new c).load image).2) ∧
    ((((new c).behind requests).load image).1 = .ok () ↔
      c.validate = .ok () ∧ image.length ≤ memoryWords - c.origin.value.toNat) ∧
    ((((new c).behind requests).load image).1 = .ok () → ∃ memory : Memory,
      (((new c).behind requests).load image).2.machine = { Machine.new with
        registers := { pc := c.origin }
        memory := memory
        tracing := lastTracing c requests } ∧
      ∀ cell < memoryWords, memory.word cell =
        if c.origin.value.toNat ≤ cell then image.getD (cell - c.origin.value.toNat) 0 else 0) ∧
    ((((new c).behind requests).load image).1 ≠ .ok () →
      (((new c).behind requests).load image).2.machine =
        Machine.new.setTracing (lastTracing c requests)) ∧
    ((new c).behind requests).machine.reset =
      Machine.new.setTracing (lastTracing c requests) ∧
    ∀ calls : List Machine.Call, (Machine.history calls).machine.reset =
      Machine.new.setTracing (calls.foldl Machine.Call.tracing false) := by
  have ok : ((new c).load image).1 = .ok () ↔ Memory.Fits c.origin image.length := load_eq_ok_iff
  have tracing : ((new c).behind requests).machine.tracing = lastTracing c requests :=
    tracing_behind requests (new c)
  rw [load_behind]
  refine ⟨rfl, fun later h => answers_setTracing h _ _, ok.trans fits_iff, fun h => ?_,
    fun h => ?_, ?_, fun calls => ?_⟩
  · refine ⟨Memory.zeros.overlay image c.origin.value.toNat, ?_, fun cell hc => ?_⟩
    · rw [load_of_fits (s := new c) (ok.1 h)]
      rfl
    · exact word_loaded image c.origin false hc
  · rw [load_of_not_fits (s := new c) (mt ok.2 h)]
    rfl
  · rw [Machine.reset, tracing]
    rfl
  · rw [Machine.reset, Machine.tracing_history]
    rfl

/-- A load behind a write, a halt and the trace switch set. -/
theorem load_forgets_halted :
    .tracing ∉ [Request.run, .read ⟨0x30⟩] ∧
    answers [.run, .read ⟨0x30⟩] (((new {}).behind
        [.call (.write ⟨0x30⟩ 7), .run, .call (.setTracing true)]).load [0x1005, 0]).2 =
      answers [.run, .read ⟨0x30⟩] ((new {}).load [0x1005, 0]).2 ∧
    (((new {}).behind [.call (.write ⟨0x30⟩ 7), .run, .call (.setTracing true)]).load
      [0x1005, 0]).1 = .ok () := by
  have unasked : .tracing ∉ [Request.run, .read ⟨0x30⟩] := by simp
  obtain ⟨-, alike, ok, -⟩ := load_forgets {}
    [.call (.write ⟨0x30⟩ 7), .run, .call (.setTracing true)] [0x1005, 0]
  exact ⟨unasked, alike _ unasked, ok.2 ⟨rfl, by decide⟩⟩

end Simulator
end Accumulator
