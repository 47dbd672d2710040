import GoBuild.Expr.Printer

/-!
# The depth of expressions

The depth of an expression is the number of nodes on its longest path from the root to a tag
(`Expr.depth`). It is the number of nested calls that a recursion over the expression needs
(`Expr.Recursion.runWithin_eq`), and what evaluates, prints and looks up tags in expressions is such a
recursion. Where only tags are negated, the depth is bounded by the number of tags
(`Expr.depth_le_of_negatesTagsOnly`), and a chain is deeper than its members by at most one for each
sign (`Expr.depth_foldl_le`).
-/

namespace GoBuild.Expr

/-- The number of nodes on the longest path from the root to a tag. -/
def depth : Expr → Nat
  | tag _ => 1
  | not x => x.depth + 1
  | and x y => max x.depth y.depth + 1
  | or x y => max x.depth y.depth + 1

/-- Nothing but tags is negated. -/
def NegatesTagsOnly : Expr → Prop
  | tag _ => True
  | not x => x.isTag = true
  | and x y => x.NegatesTagsOnly ∧ y.NegatesTagsOnly
  | or x y => x.NegatesTagsOnly ∧ y.NegatesTagsOnly

theorem length_atoms_pos (x : Expr) : 0 < x.atoms.length := by
  induction x with
  | tag name => exact Nat.zero_lt_one
  | not x ih => exact ih
  | and x y ihx _ | or x y ihx _ =>
    simp only [atoms_and, atoms_or, List.length_append]
    omega

theorem depth_le_of_negatesTagsOnly {x : Expr} (h : x.NegatesTagsOnly) :
    x.depth ≤ x.atoms.length + 1 := by
  induction x with
  | tag name => simp [depth]
  | not x _ =>
    cases x with
    | tag name => simp [depth]
    | not | and | or => cases h
  | and x y ihx ihy | or x y ihx ihy =>
    have hx := ihx h.1
    have hy := ihy h.2
    have hxpos := x.length_atoms_pos
    have hypos := y.length_atoms_pos
    simp only [depth, atoms_and, atoms_or, List.length_append]
    omega

/-! ### Chains -/

section Chains

variable {op : Expr → Expr → Expr}

/-- A chain of expressions is deeper than they are by at most the number of its signs. -/
theorem depth_foldl_le (hop : ∀ x y, (op x y).depth = max x.depth y.depth + 1) {d : Nat}
    {x : Expr} {xs : List Expr} (hx : x.depth ≤ d) (hxs : ∀ y ∈ xs, y.depth ≤ d) :
    (xs.foldl op x).depth ≤ d + xs.length := by
  induction xs generalizing x d with
  | nil => exact hx
  | cons y ys ih =>
    rw [List.forall_mem_cons] at hxs
    have hfirst : (op x y).depth ≤ d + 1 := by
      rw [hop]
      omega
    have hrest : ∀ z ∈ ys, z.depth ≤ d + 1 := fun z hz => Nat.le_succ_of_le (hxs.2 z hz)
    have hfold := ih hfirst hrest
    rw [List.foldl_cons, List.length_cons]
    omega

theorem negatesTagsOnly_foldl
    (hop : ∀ {x y}, x.NegatesTagsOnly → y.NegatesTagsOnly → (op x y).NegatesTagsOnly) {x : Expr}
    {xs : List Expr} (hx : x.NegatesTagsOnly) (hxs : ∀ y ∈ xs, y.NegatesTagsOnly) :
    (xs.foldl op x).NegatesTagsOnly := by
  induction xs generalizing x with
  | nil => exact hx
  | cons y ys ih =>
    rw [List.forall_mem_cons] at hxs
    exact ih (hop hx hxs.1) hxs.2

end Chains

/-! ### Recursions -/

/-- A recursion over expressions: its result on a tag, and its result on an operator from the operands
and the results on them. -/
structure Recursion (α : Type) where
  onTag : String → α
  onNot : Expr → α → α
  onAnd : Expr → Expr → α → α → α
  onOr : Expr → Expr → α → α → α

namespace Recursion

variable {α : Type}

/-- The result of the recursion. -/
def run (r : Recursion α) : Expr → α
  | tag name => r.onTag name
  | not x => r.onNot x (r.run x)
  | and x y => r.onAnd x y (r.run x) (r.run y)
  | or x y => r.onOr x y (r.run x) (r.run y)

/-- The result of the recursion, if it needs no more than the given number of nested calls. -/
def runWithin (r : Recursion α) : Nat → Expr → Option α
  | 0, _ => none
  | _ + 1, tag name => some (r.onTag name)
  | n + 1, not x => do return r.onNot x (← r.runWithin n x)
  | n + 1, and x y => do return r.onAnd x y (← r.runWithin n x) (← r.runWithin n y)
  | n + 1, or x y => do return r.onOr x y (← r.runWithin n x) (← r.runWithin n y)

/-- A recursion needs as many nested calls as the expression is deep. -/
theorem runWithin_eq (r : Recursion α) (n : Nat) (x : Expr) :
    r.runWithin n x = if x.depth ≤ n then some (r.run x) else none := by
  induction n generalizing x with
  | zero => cases x <;> rfl
  | succ n ih =>
    cases x with
    | tag name => simp [runWithin, run, depth]
    | not x =>
      by_cases hx : x.depth ≤ n <;> simp [runWithin, run, depth, ih, hx]
    | and x y | or x y =>
      have hmax : max x.depth y.depth + 1 ≤ n + 1 ↔ x.depth ≤ n ∧ y.depth ≤ n := by omega
      simp only [runWithin, run, depth, ih, hmax]
      by_cases hx : x.depth ≤ n <;> by_cases hy : y.depth ≤ n <;> simp [hx, hy]

/-- The recursion that evaluates an expression. -/
def evaluation (v : String → Bool) : Recursion Bool where
  onTag := v
  onNot _ a := !a
  onAnd _ _ a b := a && b
  onOr _ _ a b := a || b

/-- The recursion that evaluates an expression as far as the settled tags determine it. -/
def partialEvaluation (v : String → Option Bool) : Recursion (Option Bool) where
  onTag := v
  onNot _ a := a.map Bool.not
  onAnd _ _ := kleeneAnd
  onOr _ _ := kleeneOr

/-- The recursion that finds the direction of the first occurrence of a tag. -/
def search (t : String) : Recursion (Option Polarity) where
  onTag name := if name = t then some .positive else none
  onNot _ a := a.map Polarity.flip
  onAnd _ _ a b := a.or b
  onOr _ _ a b := a.or b

/-- The recursion that writes an expression. -/
def writing : Recursion (List Char) where
  onTag name := name.toList
  onNot x a := '!' :: wrap (!x.isTag) a
  onAnd x y a b := wrap x.isOr a ++ [' ', '&', '&', ' '] ++ wrap y.isOr b
  onOr x y a b := wrap x.isAnd a ++ [' ', '|', '|', ' '] ++ wrap y.isAnd b

theorem run_evaluation (v : String → Bool) (x : Expr) : (evaluation v).run x = x.eval v := by
  induction x with
  | tag name => rfl
  | not x ih => rw [run, ih]; rfl
  | and x y ihx ihy | or x y ihx ihy => rw [run, ihx, ihy]; rfl

theorem run_partialEvaluation (v : String → Option Bool) (x : Expr) :
    (partialEvaluation v).run x = x.partialEval v := by
  induction x with
  | tag name => rfl
  | not x ih => rw [run, ih]; rfl
  | and x y ihx ihy | or x y ihx ihy => rw [run, ihx, ihy]; rfl

theorem run_search (t : String) (x : Expr) : (search t).run x = x.lookup t := by
  induction x with
  | tag name => rfl
  | not x ih => rw [run, ih]; rfl
  | and x y ihx ihy | or x y ihx ihy => rw [run, ihx, ihy]; rfl

theorem run_writing (x : Expr) : writing.run x = x.chars := by
  induction x with
  | tag name => rfl
  | not x ih => rw [run, ih]; rfl
  | and x y ihx ihy | or x y ihx ihy => rw [run, ihx, ihy]; rfl

end Recursion

end GoBuild.Expr
