import Accumulator.Config
import Accumulator.Config.Json

/-!
# Settings as JSON

Settings are written in two sections, `general` with `trace_instructions` and `max_steps`, and
`image` with `origin`. A section, like the whole, is an object, in which unknown keys are ignored
and no known key may come twice, or a list of its fields in that order, from which the last may be
missing. Whatever is missing keeps its default.
-/

namespace Accumulator

namespace Json

/-- The fields of a record with the given field names, as far as they are present. -/
def fields (names : List String) : Json → Option (List (String × Json))
  | .object members => do
    let named ← members.mapM fun (key, value) => do
      return (String.ofList (← text? key), value)
    let known := named.filter (names.contains ·.1)
    guard (known.map (·.1)).Nodup
    return known
  | .array items => do
    guard (items.length ≤ names.length)
    return names.zip items
  | _ => none

/-- A field of a record, read by `read`; the default if it is missing. -/
def field {α : Type} (record : List (String × Json)) (name : String) (default : α)
    (read : Json → Option α) : Option α :=
  match record.lookup name with
  | some value => read value
  | none => some default

/-- A truth value. -/
def bool? : Json → Option Bool
  | .bool b => some b
  | _ => none

/-- A number written with digits alone and below `bound`. -/
def natBelow? (bound : Nat) : Json → Option Nat
  | .number (some n) => if n < bound then some n else none
  | _ => none

end Json

/-! ## Sections

A field that is missing from a section has a default of its own, and a section that is missing is
the default section. The two agree (`GeneralConfig.ofJson_empty`, `ImageConfig.ofJson_empty`). -/

namespace GeneralConfig

/-- The general settings that a JSON value stands for. -/
def ofJson (j : Json) : Option GeneralConfig := do
  let record ← j.fields ["trace_instructions", "max_steps"]
  return {
    traceInstructions := ← Json.field record "trace_instructions" false Json.bool?
    maxSteps := ← Json.field record "max_steps" defaultMaxSteps fun v =>
      (Json.natBelow? UInt64.size v).map UInt64.ofNat }

/-- A section without fields is the default one. -/
theorem ofJson_empty : ofJson (.object []) = some {} := rfl

end GeneralConfig

namespace ImageConfig

/-- The settings of the image that a JSON value stands for. -/
def ofJson (j : Json) : Option ImageConfig := do
  let record ← j.fields ["origin"]
  return {
    origin := ← Json.field record "origin" defaultOrigin fun v =>
      (Json.natBelow? UInt16.size v).map fun n => ⟨UInt16.ofNat n⟩ }

/-- A section without fields is the default one. -/
theorem ofJson_empty : ofJson (.object []) = some {} := rfl

end ImageConfig

namespace Config

/-- The settings that a JSON value stands for. -/
def ofJson (j : Json) : Option Config := do
  let sections ← j.fields ["general", "image"]
  let general ← Json.field sections "general" {} GeneralConfig.ofJson
  let image ← Json.field sections "image" {} ImageConfig.ofJson
  return { general, image with }

/-- The settings in a JSON text, validated. -/
def parse (text : String) : Except ConfigError Config :=
  match (Json.parse text.toList).bind ofJson with
  | none => .error .malformed
  | some c => do
    c.validate
    return c

end Config
end Accumulator
