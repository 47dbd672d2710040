import GoBuild.Search.Config
import GoBuild.Text.Quoted
import GoBuild.Toml.Reader

/-!
# Configuration files

The configuration of the search as a TOML document. Keys that are left out have their default, keys
without a meaning are passed over. A host is a table of three texts, or an array that begins with
them.
-/

namespace GoBuild.Config

/-- The truth value of a key, or its default. -/
def flag? (entries : Toml.Entries) (key : String) (default : Bool) : Option Bool :=
  match entries.lookup key with
  | none => some default
  | some v => v.asBool?

/-- The text of a key, which has to be there. -/
def text? (entries : Toml.Entries) (key : String) : Option String :=
  (entries.lookup key).bind Toml.asText?

/-- The host of a TOML value. -/
def host? : Toml → Option Host
  | .table _ entries => do
    return ⟨← text? entries "goos", ← text? entries "goarch", ← text? entries "compiler"⟩
  | .array (os :: arch :: compiler :: _) => do
    return ⟨← os.asText?, ← arch.asText?, ← compiler.asText?⟩
  | _ => none

/-- The configuration of the table at the root of a document. -/
def ofEntries? (entries : Toml.Entries) : Option Config := do
  return {
    fillHostDefaults := ← flag? entries "fill_host_defaults" true
    host := ← match entries.lookup "host" with
      | none => some none
      | some v => (host? v).map some
    toggleTags := ← flag? entries "toggle_tags" true
    toggleCgo := ← flag? entries "toggle_cgo" true
    searchPlatforms := ← flag? entries "search_platforms" true }

/-- The configuration of a TOML document. -/
def decode? (text : String) : Option Config := (Toml.parse? text).bind ofEntries?

/-- What is wrong with a configuration that can be read. -/
def problem? (config : Config) : Option String :=
  match config.host with
  | none => none
  | some host =>
    if config.isValid then none
    else some ("host must name goos, goarch and compiler (got " ++ Text.quoted host.os ++ "/"
      ++ Text.quoted host.arch ++ "/" ++ Text.quoted host.compiler ++ ")")

end GoBuild.Config
