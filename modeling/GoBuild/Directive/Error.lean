/-!
# Errors of build constraints

What can be wrong with the constraint of a file, and how each cause is told.
-/

namespace GoBuild

/-- What is wrong at some place of a `//go:build` expression. -/
inductive SyntaxFault where
  /-- The expression ends where an operand has to stand. -/
  | unexpectedEnd
  /-- A parenthesis is not closed. -/
  | missingCloseParen
  /-- A negation is negated without parentheses. -/
  | doubleNegation
  /-- The token cannot stand here. -/
  | unexpectedToken (text : String)
  /-- The character begins no token. -/
  | strayCharacter (c : Char)
deriving DecidableEq

/-- The text of a fault. -/
def SyntaxFault.message : SyntaxFault → String
  | unexpectedEnd => "unexpected end of expression"
  | missingCloseParen => "missing close paren"
  | doubleNegation => "double negation not allowed"
  | unexpectedToken text => "unexpected token " ++ text
  | strayCharacter c => "invalid syntax at " ++ String.singleton c

/-- Why a file has no readable constraint. -/
inductive ConstraintError where
  /-- The `//go:build` expression is wrong at the byte `offset` of its text. -/
  | malformed (offset : Nat) (fault : SyntaxFault)
  /-- The header holds more than one `//go:build` line. -/
  | multipleGoBuild
  /-- The expression has more operands than are read. -/
  | tooComplex
  /-- The line is no directive. -/
  | notConstraint
  /-- There is no package clause where one has to stand. -/
  | missingPackage
deriving DecidableEq

/-- The text of an error. -/
def ConstraintError.message : ConstraintError → String
  | malformed offset fault => "syntax error at offset " ++ toString offset ++ ": " ++ fault.message
  | multipleGoBuild => "multiple //go:build comments"
  | tooComplex => "build expression too large"
  | notConstraint => "not a build constraint"
  | missingPackage => "expected 'package' clause"

end GoBuild
