import GoBuild.Directive.Error
import GoBuild.Directive.TagWord
import GoBuild.Expr.Basic
import GoBuild.Text.Blank

/-!
# Reading `// +build` lines

The text of a `// +build` line is a disjunction of words, each a conjunction of literals between
commas. There is no way to write it wrong: what is not a literal stands for the tag `ignore`, and so
does a text without words. Only the number of operators is limited. The text is read literal by literal
and word by word, and one count goes through both loops (`Joining`).
-/

namespace GoBuild.Directive

/-- The largest number of operators of a `// +build` line. -/
def maxOperators : Nat := 100

/-- The tag that a word names, or `ignore` if it names none. -/
def tagOrIgnore (word : List Char) : Expr :=
  .tag (if isTagWord word then String.ofList word else ignoreTag)

/-- The expression that a literal writes. A sign alone and a doubled sign are no negations. -/
def literal : List Char → Expr
  | ['!'] => .tag ignoreTag
  | '!' :: '!' :: _ => .tag ignoreTag
  | '!' :: word => .not (tagOrIgnore word)
  | word => tagOrIgnore word

/-- The literals of the text, word by word. -/
def clauses (text : List Char) : List (List (List Char)) :=
  (Text.words text).map (·.splitOn ',')

/-- The state of reading: the operators of the line so far, and the expression, if one has been read. -/
structure Joining where
  operators : Nat := 0
  expr : Option Expr := none

namespace Joining

/-- Joins one more expression to what has been read. The operator between them counts. -/
def join (op : Expr → Expr → Expr) (j : Joining) (y : Expr) : Except ConstraintError Joining :=
  match j.expr with
  | none => .ok { j with expr := some y }
  | some x =>
    if j.operators + 1 ≤ maxOperators then .ok ⟨j.operators + 1, some (op x y)⟩
    else .error .tooComplex

/-- Reads one literal of a clause. -/
def addLiteral (j : Joining) (word : List Char) : Except ConstraintError Joining :=
  j.join .and (literal word)

/-- Reads one clause. Its operators count with those before it. -/
def addClause (j : Joining) (literals : List (List Char)) : Except ConstraintError Joining := do
  let inner ← literals.foldlM addLiteral { operators := j.operators }
  match inner.expr with
  | none => return { j with operators := inner.operators }
  | some y => join .or { j with operators := inner.operators } y

end Joining

/-- The expression that the text of a `// +build` line writes. -/
def parseLegacy (text : List Char) : Except ConstraintError Expr := do
  let read ← (clauses text).foldlM Joining.addClause {}
  return read.expr.getD (.tag ignoreTag)

end GoBuild.Directive
