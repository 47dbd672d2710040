import GoBuild.Directive.Legacy
import GoBuild.Directive.Modern

/-!
# Directive lines

Which lines are build directives, and the expression that a directive line writes. A line is one of
either kind if its marker is followed by a blank or by nothing; a newline may end the line and stand
nowhere else in it.
-/

namespace GoBuild.Directive

/-- The marker of modern directives. -/
def modernMarker : List Char := "//go:build".toList

/-- The beginning of a line comment. -/
def commentMarker : List Char := ['/', '/']

/-- The marker of legacy directives, inside the comment. -/
def legacyMarker : List Char := "+build".toList

/-- The line without a newline at its end, if it holds no other one. -/
def singleLine? (line : List Char) : Option (List Char) :=
  let body := if line.getLast? = some '\n' then line.dropLast else line
  if '\n' ∈ body then none else some body

/-- The trimmed text after a marker: the marker has to be followed by a blank or by nothing. -/
def textAfterMarker? (rest : List Char) : Option (List Char) :=
  match rest with
  | [] => some []
  | c :: _ => if Text.isBlank c then some (Text.trim Text.isBlank rest) else none

/-- The expression text of a `//go:build` line. -/
def modernText? (line : List Char) : Option (List Char) := do
  let body ← singleLine? line
  let rest ← Text.after? modernMarker body
  textAfterMarker? (Text.trimEnd Text.isBlank rest)

/-- The expression text of a `// +build` line. -/
def legacyText? (line : List Char) : Option (List Char) := do
  let body ← singleLine? line
  let comment ← Text.after? commentMarker body
  let rest ← Text.after? legacyMarker (Text.trim Text.isBlank comment)
  textAfterMarker? rest

/-- The line is a `//go:build` line. -/
def isModern (line : String) : Bool := (modernText? line.toList).isSome

/-- The line is a `// +build` line. -/
def isLegacy (line : String) : Bool := (legacyText? line.toList).isSome

/-- The expression that a directive line of either kind writes. -/
def parseLine (line : String) : Except ConstraintError Expr :=
  match modernText? line.toList, legacyText? line.toList with
  | some text, _ => parseModern text
  | none, some text => parseLegacy text
  | none, none => .error .notConstraint

end GoBuild.Directive
