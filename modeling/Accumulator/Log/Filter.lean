import Accumulator.Log.Directive

/-!
# Log filters

A filter is a list of directives with commas between them. Of the directives that concern an event
the most specific one alone decides: the one with the longest source, then one that names a field.
An event that no directive concerns is not written.
-/

namespace Accumulator

/-- A filter: its directives. -/
structure LogFilter where
  directives : List Directive
deriving DecidableEq, Repr

namespace LogFilter

/-- The directive that decides about an event: the most specific one, the last of equals. -/
def deciding? (f : LogFilter) (e : Event) : Option Directive :=
  (f.directives.filter (·.concerns e)).foldl (fun best d =>
    match best with
    | some b => if d.outranks b then some d else some b
    | none => some d) none

/-- Is the event written? -/
def admits (f : LogFilter) (e : Event) : Bool :=
  match f.deciding? e with
  | some d => e.level.rank ≤ d.threshold.rank
  | none => false

/-- The filter in force when instructions are traced: every event of the machine and the simulator,
and no other. -/
def tracing : LogFilter :=
  ⟨[.ofSource (some "accsim_core") .trace]⟩

/-- The filter in force when nothing else is said: warnings and errors. -/
def warnings : LogFilter :=
  ⟨[.ofSource none .warn]⟩

/-- Reads a filter. Empty directives do not count, and one that cannot be read spoils the whole. -/
def read (spec : String) : Option LogFilter :=
  ((spec.toList.splitOn ',').filter (!·.isEmpty)).mapM Directive.read |>.map (⟨·⟩)

/-- The filter of a run: tracing comes first, then what the environment asks for. -/
def choose (tracing : Bool) (spec : Option String) : LogFilter :=
  if tracing then .tracing else (spec.bind read).getD .warnings

end LogFilter
end Accumulator
