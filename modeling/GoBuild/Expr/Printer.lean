import GoBuild.Expr.Basic

/-!
# Written expressions

An expression as a `//go:build` line writes it. A conjunction puts parentheses around operands that
are disjunctions, a disjunction around operands that are conjunctions, and a negation around every
operand but a tag.
-/

namespace GoBuild.Expr

/-- The expression is a conjunction. -/
def isAnd : Expr → Bool
  | and .. => true
  | _ => false

/-- The expression is a disjunction. -/
def isOr : Expr → Bool
  | or .. => true
  | _ => false

/-- The expression is a tag. -/
def isTag : Expr → Bool
  | tag _ => true
  | _ => false

/-- The text, in parentheses where `paren` asks for them. -/
def wrap (paren : Bool) (text : List Char) : List Char :=
  if paren then '(' :: (text ++ [')']) else text

/-- The characters of the written expression. -/
def chars : Expr → List Char
  | tag name => name.toList
  | not x => '!' :: wrap (!x.isTag) x.chars
  | and x y => wrap x.isOr x.chars ++ [' ', '&', '&', ' '] ++ wrap y.isOr y.chars
  | or x y => wrap x.isAnd x.chars ++ [' ', '|', '|', ' '] ++ wrap y.isAnd y.chars

/-- The written expression. -/
def render (x : Expr) : String := String.ofList x.chars

@[simp] theorem toList_render (x : Expr) : x.render.toList = x.chars := String.toList_ofList

end GoBuild.Expr
