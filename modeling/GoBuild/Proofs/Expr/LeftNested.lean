import GoBuild.Expr.Printer

/-!
# Chains that associate to the left

An expression may hold a chain of conjunctions, or of disjunctions, in any association. Its written
form does not tell them apart, and a reader takes the one that nests to the left (`Expr.leftAssoc`).
Moving the parentheses of a chain (`Expr.Reassociates`) changes neither the tags in their order, nor
the value, nor the direction of a tag, nor the written form.
-/

namespace GoBuild.Expr

variable {x y : Expr}

/-- No conjunction is the right operand of a conjunction, and no disjunction that of a disjunction. -/
def LeftNested : Expr → Prop
  | tag _ => True
  | not x => x.LeftNested
  | and x y => x.LeftNested ∧ y.LeftNested ∧ y.isAnd = false
  | or x y => x.LeftNested ∧ y.LeftNested ∧ y.isOr = false

/-- The conjunction of `x` and the factors of a chain, from the left. -/
def andChain (x : Expr) : Expr → Expr
  | and y z => (andChain x y).and z
  | y => x.and y

/-- The disjunction of `x` and the alternatives of a chain, from the left. -/
def orChain (x : Expr) : Expr → Expr
  | or y z => (orChain x y).or z
  | y => x.or y

/-- The expression with every chain of conjunctions, and of disjunctions, nested to the left. -/
def leftAssoc : Expr → Expr
  | tag name => tag name
  | not x => not x.leftAssoc
  | and x y => andChain x.leftAssoc y.leftAssoc
  | or x y => orChain x.leftAssoc y.leftAssoc

/-- Parentheses in chains of the first expression are moved to the left, which gives the second. -/
inductive Reassociates : Expr → Expr → Prop where
  | refl (x : Expr) : Reassociates x x
  | trans {x y z : Expr} : Reassociates x y → Reassociates y z → Reassociates x z
  | rotateAnd (x y z : Expr) : Reassociates (x.and (y.and z)) ((x.and y).and z)
  | rotateOr (x y z : Expr) : Reassociates (x.or (y.or z)) ((x.or y).or z)
  | not {x x' : Expr} : Reassociates x x' → Reassociates x.not x'.not
  | and {x x' y y' : Expr} : Reassociates x x' → Reassociates y y' →
      Reassociates (x.and y) (x'.and y')
  | or {x x' y y' : Expr} : Reassociates x x' → Reassociates y y' →
      Reassociates (x.or y) (x'.or y')

/-! ### Chains -/

theorem andChain_of_not_isAnd (h : y.isAnd = false) : andChain x y = x.and y := by
  cases y <;> first | rfl | cases h

theorem orChain_of_not_isOr (h : y.isOr = false) : orChain x y = x.or y := by
  cases y <;> first | rfl | cases h

theorem andChain_assoc (x y z : Expr) :
    andChain (andChain x y) z = andChain x (andChain y z) := by
  induction z with
  | and z w ih => rw [andChain, ih, andChain, andChain]
  | tag | not | or => rfl

theorem orChain_assoc (x y z : Expr) : orChain (orChain x y) z = orChain x (orChain y z) := by
  induction z with
  | or z w ih => rw [orChain, ih, orChain, orChain]
  | tag | not | and => rfl

theorem isOr_andChain (x y : Expr) : (andChain x y).isOr = false := by cases y <;> rfl

theorem isAnd_orChain (x y : Expr) : (orChain x y).isAnd = false := by cases y <;> rfl

theorem leftNested_andChain (hx : x.LeftNested) (hy : y.LeftNested) :
    (andChain x y).LeftNested := by
  induction y with
  | and y z ihy _ => exact ⟨ihy hy.1, hy.2⟩
  | tag | not | or => exact ⟨hx, hy, rfl⟩

theorem leftNested_orChain (hx : x.LeftNested) (hy : y.LeftNested) : (orChain x y).LeftNested := by
  induction y with
  | or y z ihy _ => exact ⟨ihy hy.1, hy.2⟩
  | tag | not | and => exact ⟨hx, hy, rfl⟩

theorem leftNested_leftAssoc (x : Expr) : x.leftAssoc.LeftNested := by
  induction x with
  | tag name => trivial
  | not x ih => exact ih
  | and x y ihx ihy => exact leftNested_andChain ihx ihy
  | or x y ihx ihy => exact leftNested_orChain ihx ihy

theorem leftAssoc_of_leftNested (hx : x.LeftNested) : x.leftAssoc = x := by
  induction x with
  | tag name => rfl
  | not x ih => rw [leftAssoc, ih hx]
  | and x y ihx ihy => rw [leftAssoc, ihx hx.1, ihy hx.2.1, andChain_of_not_isAnd hx.2.2]
  | or x y ihx ihy => rw [leftAssoc, ihx hx.1, ihy hx.2.1, orChain_of_not_isOr hx.2.2]

/-- Nothing changes exactly if every chain nests to the left already. -/
theorem leftAssoc_eq_self_iff : x.leftAssoc = x ↔ x.LeftNested :=
  ⟨fun h => h ▸ leftNested_leftAssoc x, leftAssoc_of_leftNested⟩

/-! ### Moved parentheses -/

theorem reassociates_andChain (x y : Expr) : Reassociates (x.and y) (andChain x y) := by
  induction y with
  | and y z ihy _ => exact .trans (.rotateAnd x y z) (.and ihy (.refl z))
  | tag | not | or => exact .refl _

theorem reassociates_orChain (x y : Expr) : Reassociates (x.or y) (orChain x y) := by
  induction y with
  | or y z ihy _ => exact .trans (.rotateOr x y z) (.or ihy (.refl z))
  | tag | not | and => exact .refl _

theorem reassociates_leftAssoc (x : Expr) : Reassociates x x.leftAssoc := by
  induction x with
  | tag name => exact .refl _
  | not x ih => exact .not ih
  | and x y ihx ihy => exact .trans (.and ihx ihy) (reassociates_andChain _ _)
  | or x y ihx ihy => exact .trans (.or ihx ihy) (reassociates_orChain _ _)

namespace Reassociates

theorem atoms_eq (h : Reassociates x y) : x.atoms = y.atoms := by
  induction h with
  | refl => rfl
  | trans _ _ ih₁ ih₂ => exact ih₁.trans ih₂
  | rotateAnd | rotateOr => simp
  | not _ ih => exact ih
  | and _ _ ihx ihy => rw [atoms_and, atoms_and, ihx, ihy]
  | or _ _ ihx ihy => rw [atoms_or, atoms_or, ihx, ihy]

theorem eval_eq (h : Reassociates x y) (v : String → Bool) : x.eval v = y.eval v := by
  induction h with
  | refl => rfl
  | trans _ _ ih₁ ih₂ => exact ih₁.trans ih₂
  | rotateAnd => exact (Bool.and_assoc ..).symm
  | rotateOr => exact (Bool.or_assoc ..).symm
  | not _ ih => rw [eval, eval, ih]
  | and _ _ ihx ihy => rw [eval, eval, ihx, ihy]
  | or _ _ ihx ihy => rw [eval, eval, ihx, ihy]

theorem lookup_eq (h : Reassociates x y) (t : String) : x.lookup t = y.lookup t := by
  induction h with
  | refl => rfl
  | trans _ _ ih₁ ih₂ => exact ih₁.trans ih₂
  | rotateAnd | rotateOr => exact (Option.or_assoc ..).symm
  | not _ ih => rw [lookup, lookup, ih]
  | and _ _ ihx ihy => rw [lookup, lookup, ihx, ihy]
  | or _ _ ihx ihy => rw [lookup, lookup, ihx, ihy]

theorem head_eq (h : Reassociates x y) :
    x.isAnd = y.isAnd ∧ x.isOr = y.isOr ∧ x.isTag = y.isTag := by
  induction h with
  | trans _ _ ih₁ ih₂ =>
    exact ⟨ih₁.1.trans ih₂.1, ih₁.2.1.trans ih₂.2.1, ih₁.2.2.trans ih₂.2.2⟩
  | refl | rotateAnd | rotateOr | not | and | or => exact ⟨rfl, rfl, rfl⟩

theorem chars_eq (h : Reassociates x y) : x.chars = y.chars := by
  induction h with
  | refl => rfl
  | trans _ _ ih₁ ih₂ => exact ih₁.trans ih₂
  | rotateAnd | rotateOr => simp [chars, wrap, isAnd, isOr]
  | not h ih => rw [chars, chars, ih, h.head_eq.2.2]
  | and hx hy ihx ihy => rw [chars, chars, ihx, ihy, hx.head_eq.2.1, hy.head_eq.2.1]
  | or hx hy ihx ihy => rw [chars, chars, ihx, ihy, hx.head_eq.1, hy.head_eq.1]

end Reassociates

end GoBuild.Expr
