import GoBuild.Context.Basic

/-!
# Configuration of the search

What the search for a build context may change, and the host that fills the gaps of a context.
-/

namespace GoBuild

/-- What the search may do. -/
structure Config where
  /-- An empty platform or compiler is taken from the host. -/
  fillHostDefaults : Bool := true
  /-- The host, unless it is the detected one. -/
  host : Option Host := none
  /-- Tags of experiments and of the user may be set and cleared. -/
  toggleTags : Bool := true
  /-- Cgo may be enabled and disabled. -/
  toggleCgo : Bool := true
  /-- Other platforms may be tried. -/
  searchPlatforms : Bool := true
deriving DecidableEq

namespace Config

/-- Nothing is searched: a context is moved onto the platform of the file name and evaluated. -/
def strict (host : Option Host) : Config :=
  { host, toggleTags := false, toggleCgo := false, searchPlatforms := false }

/-- The host that fills the gaps of a context. -/
def hostOrDetected (config : Config) : Host := config.host.getD Host.detected

/-- A host that is configured names its platform and its compiler. -/
def isValid (config : Config) : Bool :=
  match config.host with
  | none => true
  | some host => host.os ≠ "" && host.arch ≠ "" && host.compiler ≠ ""

end Config

end GoBuild
