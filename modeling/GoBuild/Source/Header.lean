import GoBuild.Directive.Line
import GoBuild.Source.Text

/-!
# The header of a source file

The header is what stands before the first line of code: blank lines, line comments and block
comments. `//go:build` lines count anywhere in it where a line comment is the first thing on its line
(`Header.comments`). `// +build` lines count only in the preamble (`Header.preamble`), the lines
before the last blank line that has nothing but blank lines and line comments before it.
-/

namespace GoBuild.Source

/-- Where a line ends: outside of comments, inside a block comment, or in code. -/
inductive Place where
  | outside
  | inside
  | code
deriving DecidableEq

namespace Place

/-- Where a line ends that goes on with the given characters, inside a block comment or not. -/
def atEndOf : Bool → List Char → Place
  | false, [] => outside
  | true, [] => inside
  | false, '/' :: '/' :: _ => outside
  | false, '/' :: '*' :: rest => atEndOf true rest
  | false, c :: rest => if Text.isAsciiBlank c then atEndOf false rest else code
  | true, '*' :: '/' :: rest => atEndOf false rest
  | true, _ :: rest => atEndOf true rest

/-- Where the next line ends. Nothing follows code. -/
def afterLine (place : Place) (line : List Char) : Place :=
  match place with
  | outside => atEndOf false line
  | inside => atEndOf true line
  | code => code

end Place

/-- The line without ASCII blanks at its ends. -/
def trimLine (line : List Char) : List Char := Text.trim Text.isAsciiBlank line

/-- The trimmed line is a line comment. -/
def isLineComment (line : List Char) : Bool := (Text.after? Directive.commentMarker line).isSome

/-- The directives in the header of a source file. -/
structure Header where
  /-- The `//go:build` line, trimmed. -/
  goBuild : Option String := none
  /-- The `// +build` lines of the preamble, trimmed, in the order of the file. -/
  plusBuild : List String := []
  /-- The file is marked as distributed without its source. -/
  binaryOnly : Bool := false
deriving DecidableEq

namespace Header

/-- The state of going through the lines of a file: where the last line ended, and the line comments
found, last one first. -/
structure Walk where
  place : Place := .outside
  found : List (List Char) := []

/-- Goes over one line. -/
def Walk.step (w : Walk) (line : List Char) : Walk :=
  let trimmed := trimLine line
  ⟨w.place.afterLine trimmed,
    if w.place = .outside && isLineComment trimmed then trimmed :: w.found else w.found⟩

/-- The line comments before the first line of code that are the first thing on their line. -/
def comments (lines : List (List Char)) : List (List Char) :=
  (lines.foldl Walk.step {}).found.reverse

/-- The lines before the last blank line that has nothing but blank lines and line comments before
it, trimmed. -/
def preamble (lines : List (List Char)) : List (List Char) :=
  Text.trimEnd (fun line => !line.isEmpty)
    ((lines.map trimLine).takeWhile fun line => line.isEmpty || isLineComment line)

/-- The comment is a `//go:build` line: an ASCII blank or nothing follows the marker. -/
def isGoBuildComment (line : List Char) : Bool :=
  match Text.after? Directive.modernMarker line with
  | some [] => true
  | some (c :: _) => Text.isAsciiBlank c
  | none => false

/-- The comment that marks a file as distributed without its source. -/
def binaryOnlyComment : List Char := "//go:binary-only-package".toList

/-- The header of the text of a source file. -/
def ofText (text : List Char) : Except ConstraintError Header :=
  let lines := Text.lines text
  let found := comments lines
  let plusBuild := ((preamble lines).map String.ofList).filter Directive.isLegacy
  let binaryOnly := found.contains binaryOnlyComment
  match found.filter isGoBuildComment with
  | [] => .ok ⟨none, plusBuild, binaryOnly⟩
  | [line] => .ok ⟨some (String.ofList line), plusBuild, binaryOnly⟩
  | _ :: _ :: _ => .error .multipleGoBuild

/-- The header of a source file. -/
def ofContent (content : List UInt8) : Except ConstraintError Header := ofText (text content)

/-- The header holds a directive. -/
def isConstrained (h : Header) : Bool := h.goBuild.isSome || !h.plusBuild.isEmpty

/-- The largest number of `// +build` lines of one file. -/
def maxPlusBuildLines : Nat := 1000

/-- The expression that governs the file: that of the `//go:build` line, else the conjunction of all
`// +build` lines, or none if there is no directive. -/
def constraint (h : Header) : Except ConstraintError (Option Expr) :=
  match h.goBuild with
  | some line => (Directive.parseLine line).map some
  | none =>
    if h.plusBuild.length ≤ maxPlusBuildLines then
      (h.plusBuild.mapM Directive.parseLine).map Expr.conj?
    else .error .tooComplex

end Header

end GoBuild.Source
