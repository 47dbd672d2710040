import GoBuild.Directive.Error
import GoBuild.Directive.TagWord
import GoBuild.Source.Text
import GoBuild.Text.Blank

/-!
# The package clause

The name in the package clause of a source file. Blanks and comments may stand before the keyword
and have to stand after it; a comment that is not closed runs to the end of the file.
-/

namespace GoBuild.Source

/-- What is being skipped. -/
inductive Skip where
  | blanks
  | lineComment
  | blockComment

/-- What follows the blanks and comments that the text begins with, when it begins in the state
given. -/
def skipFrom : Skip → List Char → List Char
  | _, [] => []
  | .blanks, '/' :: '/' :: rest => skipFrom .lineComment rest
  | .blanks, '/' :: '*' :: rest => skipFrom .blockComment rest
  | .blanks, c :: rest => if Text.isAsciiBlank c then skipFrom .blanks rest else c :: rest
  | .lineComment, c :: rest =>
    if c = '\n' then skipFrom .blanks rest else skipFrom .lineComment rest
  | .blockComment, '*' :: '/' :: rest => skipFrom .blanks rest
  | .blockComment, _ :: rest => skipFrom .blockComment rest

/-- What follows the blanks and comments that the text begins with. -/
def skipBlanksAndComments (text : List Char) : List Char := skipFrom .blanks text

/-- The keyword of the package clause. -/
def packageKeyword : List Char := "package".toList

/-- The character can stand in a package name. -/
def isNameChar (c : Char) : Bool := Directive.isAlphanumeric c || c = '_'

/-- The name at the beginning of the text, which must not begin with a digit. -/
def nameAtStart? (text : List Char) : Option String :=
  match text.takeWhile isNameChar with
  | [] => none
  | c :: cs => if c.isDigit then none else some (String.ofList (c :: cs))

/-- The package name that the text of a source file declares. -/
def packageNameOfText? (text : List Char) : Option String := do
  let rest ← Text.after? packageKeyword (skipBlanksAndComments text)
  let name := skipBlanksAndComments rest
  if name.length = rest.length then none else nameAtStart? name

/-- The package name that a source file declares. -/
def packageName (content : List UInt8) : Except ConstraintError String :=
  match packageNameOfText? (text content) with
  | some name => .ok name
  | none => .error .missingPackage

end GoBuild.Source
