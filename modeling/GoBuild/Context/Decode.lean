import GoBuild.Context.Basic
import GoBuild.Json.Reader
import GoBuild.Json.Record

/-!
# Build contexts from JSON

A context is a record of seven fields. Fields that are left out are empty.
-/

namespace GoBuild.Context

/-- The names of the fields, in order. -/
def fieldNames : List String :=
  ["goos", "goarch", "compiler", "cgo_enabled", "build_tags", "tool_tags", "release_tags"]

/-- The set of tags that an array of strings gives. -/
def tagSet? (j : Json) : Option TagSet := j.asTexts?.map TagSet.ofList

/-- The context of a JSON value. -/
def ofJson? (j : Json) : Option Context := do
  match ← j.fields? fieldNames with
  | [os, arch, compiler, cgo, buildTags, toolTags, releaseTags] =>
    return {
      os := ← Json.optional? Json.asText? "" os
      arch := ← Json.optional? Json.asText? "" arch
      compiler := ← Json.optional? Json.asText? "" compiler
      cgo := ← Json.optional? Json.asBool? false cgo
      buildTags := ← Json.optional? tagSet? .empty buildTags
      toolTags := ← Json.optional? tagSet? .empty toolTags
      releaseTags := ← Json.optional? tagSet? .empty releaseTags }
  | _ => none

/-- The context of a JSON text. -/
def decode? (text : String) : Option Context := do ofJson? (← Json.parse? text)

end GoBuild.Context
