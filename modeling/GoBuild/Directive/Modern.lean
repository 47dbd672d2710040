import GoBuild.Directive.Error
import GoBuild.Directive.Token
import GoBuild.Expr.Basic

/-!
# Reading `//go:build` expressions

An expression is read token by token by a machine (`Machine`). Its state holds the open parentheses,
each with the operands read so far before it, and says what comes next (`Phase`): an operand, an
operand after a negation sign, or what follows a complete operand. Negation binds tighter than
conjunction, conjunction tighter than disjunction, and both associate to the left. At most
`maxOperands` operands are begun, where a tag and an open parenthesis each count once; an operand too
many is refused before its first token is looked at.
-/

namespace GoBuild.Directive

/-- The largest number of operands of a `//go:build` expression. -/
def maxOperands : Nat := 1000

/-- The operands read on one level of parentheses: the disjunction of the finished alternatives, the
conjunction of the finished factors of the present one, and whether the next operand is negated. -/
structure Level where
  alternatives : Option Expr := none
  factors : Option Expr := none
  negated : Bool := false

namespace Level

/-- The operand `x`, negated if it stands after a negation sign, as the next factor. -/
def factor (level : Level) (x : Expr) : Expr :=
  let operand := if level.negated then x.not else x
  level.factors.elim operand fun left => left.and operand

/-- All that the level holds, ending with the operand `x`. -/
def close (level : Level) (x : Expr) : Expr :=
  level.alternatives.elim (level.factor x) fun left => left.or (level.factor x)

/-- The level after the operand `x` and a conjunction sign. -/
def andThen (level : Level) (x : Expr) : Level := ⟨level.alternatives, level.factor x, false⟩

/-- The level after the operand `x` and a disjunction sign. -/
def orElse (level : Level) (x : Expr) : Level := ⟨level.close x, none, false⟩

end Level

/-- What the machine reads next. -/
inductive Phase where
  /-- An operand, or a negation sign before one. -/
  | operand
  /-- The operand of a negation sign. -/
  | negated
  /-- What follows the complete operand `x`. -/
  | complete (x : Expr)

/-- The state of reading: the number of operands begun, the innermost level, the levels around it
with the offsets of the parentheses that interrupt them, and what comes next. -/
structure Machine where
  operands : Nat
  level : Level := {}
  outer : List (Nat × Level) := []
  phase : Phase := .operand

namespace Machine

/-- The state before the first token. -/
def start : Machine := { operands := 1 }

/-- The state that begins an operand on `level`, unless there are too many. -/
def beginOperand (m : Machine) (level : Level) (outer : List (Nat × Level)) :
    Except ConstraintError Machine :=
  if m.operands < maxOperands then .ok ⟨m.operands + 1, level, outer, .operand⟩
  else .error .tooComplex

/-- Reads a token where an operand stands, after a negation sign or not. -/
def readOperand (m : Machine) (l : Lexeme) : Except ConstraintError Machine :=
  match l.token with
  | .tag name => .ok { m with phase := .complete (.tag name) }
  | .openParen => m.beginOperand {} ((l.offset, m.level) :: m.outer)
  | other => .error (.malformed l.offset (.unexpectedToken other.text))

/-- Reads a token after the complete operand `x`. -/
def readAfter (m : Machine) (x : Expr) (l : Lexeme) : Except ConstraintError Machine :=
  match l.token, m.outer with
  | .and, outer => m.beginOperand (m.level.andThen x) outer
  | .or, outer => m.beginOperand (m.level.orElse x) outer
  | .closeParen, (_, level) :: outer =>
    .ok ⟨m.operands, level, outer, .complete (m.level.close x)⟩
  | _, (opened, _) :: _ => .error (.malformed opened .missingCloseParen)
  | other, [] => .error (.malformed l.offset (.unexpectedToken other.text))

/-- Reads one token. -/
def step (m : Machine) (l : Lexeme) : Except ConstraintError Machine :=
  match l.token, m.phase with
  | .stray c, _ => .error (.malformed l.offset (.strayCharacter c))
  | .not, .operand => .ok { m with level := { m.level with negated := true }, phase := .negated }
  | .not, .negated => .error (.malformed l.offset .doubleNegation)
  | _, .operand => m.readOperand l
  | _, .negated => m.readOperand l
  | _, .complete x => m.readAfter x l

/-- The expression read, when the text ends at the byte `offset`. -/
def finish (m : Machine) (offset : Nat) : Except ConstraintError Expr :=
  match m.phase, m.outer with
  | .complete x, [] => .ok (m.level.close x)
  | .complete _, (opened, _) :: _ => .error (.malformed opened .missingCloseParen)
  | _, [] => .error (.malformed offset .unexpectedEnd)
  | _, _ :: _ => .error (.malformed offset .missingCloseParen)

end Machine

/-- The expression that the text of a `//go:build` line writes. -/
def parseModern (text : List Char) : Except ConstraintError Expr := do
  let m ← (Lexeme.scan text).foldlM Machine.step Machine.start
  m.finish (Text.utf8Length text)

end GoBuild.Directive
