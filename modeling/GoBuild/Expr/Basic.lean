import GoBuild.TagSet

/-!
# Build expressions

An expression over tags, with negation, conjunction and disjunction. Besides its value (`eval`) it
has the list of the tags it asks for (`atoms`), a three-valued value when only some tags are settled
(`partialEval`), and the direction in which the first occurrence of a tag counts (`lookup`).
-/

namespace GoBuild

/-- A build expression. -/
inductive Expr where
  | tag (name : String)
  | not (x : Expr)
  | and (x y : Expr)
  | or (x y : Expr)
deriving DecidableEq, Inhabited

/-- The direction in which an occurrence of a tag counts: under an even number of negations, or
under an odd number. -/
inductive Polarity where
  | positive
  | negative
deriving DecidableEq

namespace Polarity

/-- The opposite direction. -/
def flip : Polarity → Polarity
  | positive => negative
  | negative => positive

/-- The value of the tag that an occurrence in this direction asks for. -/
def isPositive : Polarity → Bool
  | positive => true
  | negative => false

@[simp] theorem flip_flip (p : Polarity) : p.flip.flip = p := by cases p <;> rfl

@[simp] theorem isPositive_flip (p : Polarity) : p.flip.isPositive = !p.isPositive := by
  cases p <;> rfl

end Polarity

namespace Expr

/-- The value of the expression when each tag has the value `v` gives it. -/
def eval (v : String → Bool) : Expr → Bool
  | tag name => v name
  | not x => !x.eval v
  | and x y => x.eval v && y.eval v
  | or x y => x.eval v || y.eval v

/-- The tags that the expression asks for, put before those of the list. -/
def atomsOnto : Expr → List String → List String
  | tag name, rest => name :: rest
  | not x, rest => x.atomsOnto rest
  | and x y, rest => x.atomsOnto (y.atomsOnto rest)
  | or x y, rest => x.atomsOnto (y.atomsOnto rest)

/-- The tags in the order in which the expression asks for them, one entry for each occurrence. -/
def atoms (x : Expr) : List String := x.atomsOnto []

theorem atomsOnto_eq (x : Expr) (rest : List String) : x.atomsOnto rest = x.atoms ++ rest := by
  induction x generalizing rest with
  | tag name => rfl
  | not x ih => exact ih rest
  | and x y ihx ihy =>
    show x.atomsOnto (y.atomsOnto rest) = x.atomsOnto (y.atomsOnto []) ++ rest
    rw [ihx, ihy rest, ihx (y.atomsOnto []), List.append_assoc, ihy [], List.append_nil]
  | or x y ihx ihy =>
    show x.atomsOnto (y.atomsOnto rest) = x.atomsOnto (y.atomsOnto []) ++ rest
    rw [ihx, ihy rest, ihx (y.atomsOnto []), List.append_assoc, ihy [], List.append_nil]

@[simp] theorem atoms_tag (name : String) : (tag name).atoms = [name] := rfl

@[simp] theorem atoms_not (x : Expr) : x.not.atoms = x.atoms := rfl

@[simp] theorem atoms_and (x y : Expr) : (x.and y).atoms = x.atoms ++ y.atoms := atomsOnto_eq x _

@[simp] theorem atoms_or (x y : Expr) : (x.or y).atoms = x.atoms ++ y.atoms := atomsOnto_eq x _

/-- The tags that the expression mentions. -/
def tags (x : Expr) : TagSet := TagSet.ofList x.atoms

@[simp] theorem mem_tags {t : String} {x : Expr} : t ∈ x.tags ↔ t ∈ x.atoms := TagSet.mem_ofList

/-- Both sides are true; one false side settles it. -/
def kleeneAnd : Option Bool → Option Bool → Option Bool
  | some false, _ => some false
  | _, some false => some false
  | some true, some true => some true
  | _, _ => none

/-- Some side is true; one true side settles it. -/
def kleeneOr : Option Bool → Option Bool → Option Bool
  | some true, _ => some true
  | _, some true => some true
  | some false, some false => some false
  | _, _ => none

/-- The value of the expression when that of each tag is asked for. Both operands of an operator are
always evaluated, so that every tag is asked for. -/
def evalM {m : Type → Type} [Monad m] (ask : String → m Bool) : Expr → m Bool
  | tag name => ask name
  | not x => do
    let value ← x.evalM ask
    return !value
  | and x y => do
    let left ← x.evalM ask
    let right ← y.evalM ask
    return left && right
  | or x y => do
    let left ← x.evalM ask
    let right ← y.evalM ask
    return left || right

/-- The value of the expression as far as the settled tags determine it operator by operator; `v`
leaves the other tags open. -/
def partialEval (v : String → Option Bool) : Expr → Option Bool
  | tag name => v name
  | not x => (x.partialEval v).map Bool.not
  | and x y => kleeneAnd (x.partialEval v) (y.partialEval v)
  | or x y => kleeneOr (x.partialEval v) (y.partialEval v)

/-- The direction of the first occurrence of a tag. -/
def lookup (t : String) : Expr → Option Polarity
  | tag name => if name = t then some .positive else none
  | not x => (x.lookup t).map Polarity.flip
  | and x y => (x.lookup t).or (y.lookup t)
  | or x y => (x.lookup t).or (y.lookup t)

/-- The expression mentions the tag. -/
def mentions (x : Expr) (t : String) : Bool := (x.lookup t).isSome

/-- The conjunction of the expressions from the left, if there are any. -/
def conj? : List Expr → Option Expr
  | [] => none
  | x :: xs => some (xs.foldl and x)

/-- The disjunction of the expressions from the left, if there are any. -/
def disj? : List Expr → Option Expr
  | [] => none
  | x :: xs => some (xs.foldl or x)

/-- The value depends on the mentioned tags only. -/
theorem eval_congr {v w : String → Bool} {x : Expr} (h : ∀ t ∈ x.atoms, v t = w t) :
    x.eval v = x.eval w := by
  induction x with
  | tag name => exact h name (by simp)
  | not x ih => simp only [eval, ih h]
  | and x y ihx ihy =>
    simp only [atoms_and, List.mem_append] at h
    simp only [eval, ihx fun t ht => h t (.inl ht), ihy fun t ht => h t (.inr ht)]
  | or x y ihx ihy =>
    simp only [atoms_or, List.mem_append] at h
    simp only [eval, ihx fun t ht => h t (.inl ht), ihy fun t ht => h t (.inr ht)]

/-- A tag has a direction exactly if it is mentioned. -/
theorem isSome_lookup {t : String} {x : Expr} : (x.lookup t).isSome ↔ t ∈ x.atoms := by
  induction x with
  | tag name =>
    by_cases h : name = t
    · simp [lookup, h]
    · simp [lookup, h, Ne.symm h]
  | not x ih => simp [lookup, ih]
  | and x y ihx ihy => simp [lookup, ihx, ihy]
  | or x y ihx ihy => simp [lookup, ihx, ihy]

end Expr

end GoBuild
