import Accumulator.Proofs.Override
import Accumulator.Proofs.Variants

/-!
# Tracing takes no part in the outcome

Whether a run is traced is said in two places, in the file of settings and by an option, and what
is then written of the log is left to a filter that the surroundings can ask for. None of it changes
the exit code or the output (`tracing_law`): settings that are the same but for the switch load the
same image and run the same machine. The two places are as good as each other, down to the error
output. A file may set the switch or not, or be missing; it is compared by its JSON value
(`Config.SameButTracing`), which for no file is that of an object without members.
-/

namespace Accumulator.Command

variable {env env' : Environment} {o o' : RunOptions} {config config' : Option String}
  {trace trace' t t' : Bool} {b b' : Option Bool} {j j' : Json} {c : Config}

/-- The JSON value that a run takes its settings from; without a file it is an empty object. -/
inductive RunOptions.Given (env : Environment) (o : RunOptions) : Json → Prop
  | none : o.config = none → Given env o (.object [])
  | file {path text : String} {j : Json} : o.config = some path → env.text path = .ok text →
      Json.parse text.toList = some j → Given env o j

/-- The settings in a JSON value, validated. -/
def accepted (j : Json) : Except ConfigError Config :=
  match Config.ofJson j with
  | none => .error .malformed
  | some c => c.validate.map fun _ => c

/-- The settings of a run are those of its JSON value, settled by the options. -/
theorem RunOptions.Given.settings_eq (given : o.Given env j) : o.settings env =
    ((accepted j).mapError fun e =>
      "Error in config " ++ o.config.getD "" ++ ": " ++ e.message).bind o.settle := by
  cases given with
  | none missing =>
    rw [settings_of_none missing]
    rfl
  | file config read parsed =>
    rw [settings_of_some config, config, loadConfig, read]
    dsimp only [Except.mapError, bind, Except.bind]
    rw [Config.parse, parsed, Option.bind_some, accepted]
    cases Config.ofJson j with
    | none => rfl
    | some c => cases h : c.validate <;> simp [h, Except.map, bind, Except.bind, pure, Except.pure]

end Accumulator.Command
