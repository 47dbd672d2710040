import GoBuild.Expr.Printer
import GoBuild.Json.Printer
import GoBuild.Search.Matcher
import GoBuild.Source.Package

/-!
# Reports

What is told about one file: the context found for it or the failure, as a line of text
(`Report.line`) or as a JSON object (`Report.json`), which also gives the package name and the
constraint of the file as far as they can be read.
-/

namespace GoBuild

/-- What is told about one file. -/
structure Report where
  path : String
  package : Option String
  /-- The written constraint. -/
  constraint : Option String
  outcome : Except MatchFault Context

namespace Report

/-- The report on the file at `path`, given what the search found. -/
def ofResult (path : String) (content : List UInt8) (result : Except MatchError Context) :
    Report where
  path
  package := (Source.packageName content).toOption
  constraint := (Matcher.constraintOf content).toOption.join.map Expr.render
  outcome := result.mapError (·.fault)

/-- No context was found. -/
def isFailure (r : Report) : Bool :=
  match r.outcome with
  | .ok _ => false
  | .error _ => true

/-- The names of the experiments whose tags are set. -/
def experiments (c : Context) : List String :=
  c.toolTags.toList.filterMap fun t =>
    (Text.after? experimentMark.toList t.toList).map String.ofList

/-- The settings that differ from a plain build, with the platform and cgo first. -/
def settings (c : Context) : List String :=
  ["GOOS=" ++ c.os, "GOARCH=" ++ c.arch, "CGO_ENABLED=" ++ (if c.cgo then "1" else "0")]
    ++ (if (experiments c).isEmpty then []
        else ["GOEXPERIMENT=" ++ ",".intercalate (experiments c)])
    ++ (if c.compiler = gcCompiler then [] else ["-compiler=" ++ c.compiler])
    ++ (if c.buildTags.toList.isEmpty then []
        else ["-tags=" ++ ",".intercalate c.buildTags.toList])

/-- The report as a line of text. -/
def line (r : Report) : String :=
  match r.outcome with
  | .ok c => r.path ++ ": " ++ " ".intercalate (settings c)
  | .error fault =>
    r.path ++ ": error: " ++ fault.message ++ (if fault.isPermanent then " (permanent)" else "")

/-- A context as JSON. -/
def contextJson (c : Context) : Json :=
  .record
    [("goos", .text c.os), ("goarch", .text c.arch), ("compiler", .text c.compiler),
     ("cgo_enabled", .bool c.cgo), ("build_tags", .texts c.buildTags.toList),
     ("tool_tags", .texts c.toolTags.toList), ("release_tags", .texts c.releaseTags.toList)]

/-- What the JSON form of a report says about the outcome. -/
def outcomeJson : Except MatchFault Context → List (String × Json)
  | .ok c => [("status", .text "matched"), ("context", contextJson c)]
  | .error fault =>
    [("status", .text "failed"), ("error", .text fault.message),
     ("permanent", .bool fault.isPermanent)]

/-- The report as JSON. -/
def json (r : Report) : Json :=
  .record
    ([("path", .text r.path)]
      ++ (r.package.toList.map fun name => ("package", .text name))
      ++ (r.constraint.toList.map fun text => ("constraint", .text text))
      ++ outcomeJson r.outcome)

end Report

end GoBuild
