import GoBuild.Json.Reader
import GoBuild.Json.Record
import GoBuild.Platform.Targets

/-!
# Lists of platforms

The targets of a toolchain as it lists them itself: a JSON array of records with the operating
system, the architecture, whether cgo is supported, and whether the platform is first class, which it
is not if nothing is said. The list must not be empty; its platforms are put in order of preference.
-/

namespace GoBuild

/-- Why a list of platforms cannot be used. -/
inductive DistListError where
  /-- The text is no JSON array of platforms. -/
  | malformed
  /-- There is no platform in the list. -/
  | empty
deriving DecidableEq

namespace DistListError

/-- The text of an error. -/
def message : DistListError → String
  | malformed => "invalid platform list"
  | empty => "platform list is empty"

end DistListError

namespace Platform

/-- The names of the fields of a platform, in order. -/
def fieldNames : List String := ["GOOS", "GOARCH", "CgoSupported", "FirstClass"]

/-- The platform of a JSON value. -/
def ofJson? (j : Json) : Option Platform := do
  match ← j.fields? fieldNames with
  | [os, arch, cgo, firstClass] =>
    return {
      os := ← Json.required? Json.asText? os
      arch := ← Json.required? Json.asText? arch
      cgo := ← Json.required? Json.asBool? cgo
      firstClass := ← Json.optional? Json.asBool? false firstClass }
  | _ => none

/-- The platforms of a JSON value. -/
def listOfJson? : Json → Option (List Platform)
  | .array items => items.mapM ofJson?
  | _ => none

end Platform

/-- The targets that a list of platforms gives, as seen from `host`. -/
def Targets.ofDistList (text : String) (host : Host) : Except DistListError Targets :=
  match (Json.parse? text).bind Platform.listOfJson? with
  | none => .error .malformed
  | some [] => .error .empty
  | some (p :: ps) => .ok ⟨Platform.sortByRank (p :: ps), host⟩

end GoBuild
