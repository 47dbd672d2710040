import GoBuild.Search.Step
import GoBuild.Source.Header

/-!
# Finding a context for a file

Given a context to start from, the matcher finds one in which a source file is built: the gaps of
the start are filled, the context is placed on the platform of the file name, and if the file has a
constraint, the steps that the configuration allows look for a context in which it holds.
-/

namespace GoBuild

/-- The targets and the configuration with which contexts are searched. -/
structure Matcher where
  targets : Targets
  config : Config

namespace Matcher

/-- The matcher over the default targets, as seen from the configured host. -/
def ofConfig (config : Config) : Matcher := ⟨.default config.hostOrDetected, config⟩

/-- The start with its gaps filled, as far as the configuration asks for it. -/
def filled (m : Matcher) (start : Context) : Context :=
  if m.config.fillHostDefaults then start.fill m.config.hostOrDetected else start

/-- The context from which the search for the file at `path` starts. -/
def baseFor (m : Matcher) (start : Context) (path : String) : Context :=
  (Source.Mandate.ofPath path).place m.targets (m.filled start)

/-- The problem of making the constraint `x` of the file at `path` hold. -/
def problem (m : Matcher) (start : Context) (path : String) (x : Expr) : Problem :=
  ⟨m.targets, x, .ofPath path, m.baseFor start path⟩

/-- The constraint in the header of a source file. -/
def constraintOf (content : List UInt8) : Except ConstraintError (Option Expr) := do
  let h ← Source.Header.ofContent content
  h.constraint

/-- A context in which the file at `path` is built, found from `start`. -/
def find (m : Matcher) (start : Context) (path : String) (content : List UInt8) :
    Except MatchError Context :=
  match constraintOf content with
  | .error e => .error ⟨path, .unreadable e⟩
  | .ok none => .ok (m.baseFor start path)
  | .ok (some x) =>
    ((m.problem start path x).runAll (Step.order.filter m.config.allows)).mapError (⟨path, ·⟩)

end Matcher

end GoBuild
