import GoBuild.CommandLine.Options
import GoBuild.CommandLine.Sources
import GoBuild.Platform.DistList
import GoBuild.Report
import GoBuild.Search.ConfigFile

/-!
# The program

A run of the command: the configuration, the list of platforms and the starting context are read
from the options, in this order, then the files for the paths are collected, and one line is written
for each of them. The program sees the files around it as a `FileSystem` and returns its outcome as a
value.
-/

namespace GoBuild

/-- An error that ends the program before any line is written. -/
inductive FatalError where
  | unreadableConfig (path : String)
  | malformedConfig (path : String)
  | rejectedConfig (problem : String)
  | unreadableTable (path : String)
  | malformedTable (path : String)
  | badVersion (version : String)
  | missingPath (path : String)
  | unwalkablePath (path : String)
deriving DecidableEq

/-- The text of an error. -/
def FatalError.message : FatalError → String
  | unreadableConfig path => "failed to read config " ++ path
  | malformedConfig path => "invalid config " ++ path
  | rejectedConfig problem => problem
  | unreadableTable path => "failed to read platform table " ++ path
  | malformedTable path => "invalid platform table " ++ path
  | badVersion version => "invalid Go version " ++ Text.quoted version ++ ", want go1.N"
  | missingPath path => path ++ " does not exist"
  | unwalkablePath path => "failed to walk " ++ path

/-- The error that there is no list of files. -/
def FatalError.ofListing : ListingError → FatalError
  | .missing root => missingPath (String.ofList (Text.decodeLossy root))
  | .unwalkable root => unwalkablePath (String.ofList (Text.decodeLossy root))

/-- What a run of the program leaves: its exit status, the lines written, and the error that ended
it. -/
structure Outcome where
  status : Nat
  output : List String := []
  fatal : Option FatalError := none

namespace Program

/-- The line that tells the version. -/
def versionLine : String := "go-match-context 0.1.1"

/-- The lines that tell how the command is used. -/
def helpLines : List String :=
  ["Find a Go build context under which each file is built",
   "",
   "Usage: go-match-context [OPTIONS] <PATHS>...",
   "",
   "Arguments:",
   "  <PATHS>...                   Go files or package directories",
   "",
   "Options:",
   "      --goos <GOOS>            Starting GOOS (default: host)",
   "      --goarch <GOARCH>        Starting GOARCH (default: host)",
   "      --compiler <COMPILER>    Compiler: gc|gccgo [default: gc]",
   "      --cgo                    Start with cgo enabled",
   "      --tags <TAGS>            Comma-separated build tags",
   "      --tool-tags <TOOL_TAGS>  Comma-separated toolchain tags, e.g. goexperiment.arenas",
   "      --go-version <VERSION>   Go release to build with, e.g. go1.20 (default: newest known)",
   "      --config <CONFIG>        Matcher configuration (TOML)",
   "      --platforms <PLATFORMS>  Platform table, as printed by go tool dist list -json",
   "      --strict                 Only evaluate the starting context; never search for another one",
   "      --json                   Print one JSON object per file",
   "  -v, --verbose                Enable verbose logging",
   "  -q, --quiet                  Quiet mode: log only errors",
   "  -h, --help                   Print help",
   "  -V, --version                Print version"]

/-- The text of the file at a path, if there is one and it is UTF-8. -/
def readText? (fs : FileSystem) (path : String) : Option String :=
  match fs.find (Text.encode path.toList) with
  | some (.file content) => Text.decode? content
  | _ => none

/-- The configuration as the options name it, before it is examined. -/
def namedConfig (fs : FileSystem) (o : Options) : Except FatalError Config :=
  match o.value? .config with
  | none => .ok {}
  | some path =>
    match readText? fs path with
    | none => .error (.unreadableConfig path)
    | some text =>
      match Config.decode? text with
      | none => .error (.malformedConfig path)
      | some config => .ok config

/-- The configuration of a run. -/
def configOf (fs : FileSystem) (o : Options) : Except FatalError Config := do
  let named ← namedConfig fs o
  let config := if o.has .strict then
      { Config.strict named.host with fillHostDefaults := named.fillHostDefaults }
    else named
  match config.problem? with
  | some problem => .error (.rejectedConfig problem)
  | none => return config

/-- The targets of a run. -/
def targetsOf (fs : FileSystem) (o : Options) (config : Config) :
    Except FatalError Targets :=
  match o.value? .platforms with
  | none => .ok (.default config.hostOrDetected)
  | some path =>
    match readText? fs path with
    | none => .error (.unreadableTable path)
    | some text =>
      match Targets.ofDistList text config.hostOrDetected with
      | .ok targets => .ok targets
      | .error _ => .error (.malformedTable path)

/-- The context from which the search starts for each file. -/
def startOf (o : Options) : Except FatalError Context := do
  let minor ← match o.value? .goVersion with
    | none => pure latestMinor
    | some version =>
      match minorOfVersion? version with
      | some minor => pure minor
      | none => .error (.badVersion version)
  return {
    os := (o.value? .os).getD ""
    arch := (o.value? .arch).getD ""
    compiler := (o.value? .compiler).getD gcCompiler
    cgo := o.has .cgo
    buildTags := .ofList (o.listed .tags)
    toolTags := .ofList (o.listed .toolTags)
    releaseTags := Context.releasesThrough minor }

/-- The report on a file. -/
def reportOn (m : Matcher) (start : Context) (f : FoundFile) : Report :=
  let path := String.ofList (Text.decodeLossy f.path)
  .ofResult path f.content (m.find start path f.content)

/-- The reports of a run, one for each file. -/
def reports (fs : FileSystem) (o : Options) : Except FatalError (List Report) := do
  let config ← configOf fs o
  let targets ← targetsOf fs o config
  let start ← startOf o
  let files ← (fs.collect (o.paths.map fun path => Text.encode path.toList)).mapError .ofListing
  return files.map (reportOn ⟨targets, config⟩ start)

/-- The line written for a report. -/
def writtenLine (o : Options) (r : Report) : String :=
  if o.has .json then r.json.render else r.line

/-- The outcome of a run with the options given. -/
def runWith (fs : FileSystem) (o : Options) : Outcome :=
  match reports fs o with
  | .error e => ⟨1, [], some e⟩
  | .ok rs => ⟨if rs.any Report.isFailure then 1 else 0, rs.map (writtenLine o), none⟩

/-- The outcome of a run with the words of a command line. -/
def run (fs : FileSystem) (words : List String) : Outcome :=
  match Command.parse words with
  | .error _ => ⟨2, [], none⟩
  | .ok .version => ⟨0, [versionLine], none⟩
  | .ok .help => ⟨0, helpLines, none⟩
  | .ok (.run o) => runWith fs o

end Program

end GoBuild
