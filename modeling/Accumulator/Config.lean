import Accumulator.Address

/-!
# Settings of a run

Three settings in two sections, each with a default: whether every instruction is traced and the
budget of steps, and the address at which an image is placed and started. The address must name a
cell.
-/

namespace Accumulator

/-- The budget of a run that sets none. -/
def defaultMaxSteps : UInt64 := 10000

/-- The origin of a run that sets none. -/
def defaultOrigin : Address := ⟨0⟩

/-- The general settings; they have defaults as a section. -/
structure GeneralConfig where
  /-- Is every instruction executed put on the log? -/
  traceInstructions : Bool := false
  /-- How many instructions a run may execute. -/
  maxSteps : UInt64 := defaultMaxSteps
deriving DecidableEq, Repr

/-- The settings of the image; they have defaults as a section. -/
structure ImageConfig where
  /-- Where an image is placed and started. -/
  origin : Address := defaultOrigin
deriving DecidableEq, Repr

/-- The settings of a run. -/
structure Config extends GeneralConfig, ImageConfig
deriving DecidableEq, Repr

/-- Why settings are refused. -/
inductive ConfigError where
  /-- The text is not JSON, or a setting has the wrong form. -/
  | malformed
  /-- The origin names no cell. -/
  | originOutOfRange (origin : Address)
deriving DecidableEq, Repr

/-- The error in words. -/
def ConfigError.message : ConfigError → String
  | .malformed => "invalid configuration"
  | .originOutOfRange origin =>
    "image origin 0x" ++ Hex.lower 1 origin.value.toNat ++ " is outside memory"

namespace Config

/-- Accepts settings whose origin names a cell. -/
def validate (c : Config) : Except ConfigError Unit :=
  if memoryWords ≤ c.origin.value.toNat then .error (.originOutOfRange c.origin) else .ok ()

/-- The settings as the log shows them. -/
def text (c : Config) : String :=
  "Config \x7b general: GeneralConfig \x7b trace_instructions: " ++ toString c.traceInstructions ++
    ", max_steps: " ++ toString c.maxSteps.toNat ++ " \x7d, image: ImageConfig \x7b origin: " ++
    toString c.origin.value.toNat ++ " \x7d \x7d"

end Config
end Accumulator
