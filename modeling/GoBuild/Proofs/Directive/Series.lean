import GoBuild.Proofs.Directive.Grammar
import GoBuild.Proofs.Directive.Spelling
import GoBuild.Proofs.Expr.Fold

/-!
# Series of operands

Conjunctions and disjunctions of a non-empty list (`Series`) of operands: the phrase that nests them
to the left, its expression and its tags, and the text that spells it (`Spells.intercalate`).
-/

namespace GoBuild.Directive

/-- A list that is not empty. -/
structure Series (α : Type) where
  first : α
  others : List α

namespace Series

variable {α β : Type}

def toList (s : Series α) : List α := s.first :: s.others

def map (f : α → β) (s : Series α) : Series β := ⟨f s.first, s.others.map f⟩

@[simp] theorem toList_map (f : α → β) (s : Series α) : (s.map f).toList = s.toList.map f := rfl

theorem toList_ne_nil (s : Series α) : s.toList ≠ [] := List.cons_ne_nil _ _

end Series

/-! ### Phrases -/

namespace Phrase

/-- The conjunction of the operands. -/
def ofFactors (os : Series (Phrase .operand)) : Phrase .conjunction :=
  os.others.foldl and (factor os.first)

/-- The disjunction of the operands. -/
def ofAlternatives (os : Series (Phrase .operand)) : Phrase .disjunction :=
  os.others.foldl (fun d o => d.or (factor o)) (alternative (factor os.first))

variable {os : List (Phrase .operand)}

theorem expr_foldl_and (c : Phrase .conjunction) :
    (os.foldl and c).expr = (os.map expr).foldl Expr.and c.expr := by
  induction os generalizing c with
  | nil => rfl
  | cons o os ih => rw [List.foldl_cons, ih, List.map_cons, List.foldl_cons, expr]

theorem expr_foldl_or (d : Phrase .disjunction) :
    (os.foldl (fun d o => d.or (factor o)) d).expr = (os.map expr).foldl Expr.or d.expr := by
  induction os generalizing d with
  | nil => rfl
  | cons o os ih => rw [List.foldl_cons, ih, List.map_cons, List.foldl_cons, expr, expr]

theorem conj?_map_expr (os : Series (Phrase .operand)) :
    Expr.conj? (os.toList.map expr) = some (ofFactors os).expr := by
  rw [ofFactors, expr_foldl_and]
  rfl

theorem disj?_map_expr (os : Series (Phrase .operand)) :
    Expr.disj? (os.toList.map expr) = some (ofAlternatives os).expr := by
  rw [ofAlternatives, expr_foldl_or]
  rfl

theorem atoms_ofFactors {α : Type} (f : α → Phrase .operand) (s : Series α) :
    (ofFactors (s.map f)).expr.atoms = s.toList.flatMap fun a => (f a).expr.atoms := by
  have := Expr.atoms_conj? ((s.map f).toList.map expr)
  rwa [conj?_map_expr, Series.toList_map, List.map_map, List.flatMap_map] at this

theorem atoms_ofAlternatives {α : Type} (f : α → Phrase .operand) (s : Series α) :
    (ofAlternatives (s.map f)).expr.atoms = s.toList.flatMap fun a => (f a).expr.atoms := by
  have := Expr.atoms_disj? ((s.map f).toList.map expr)
  rwa [disj?_map_expr, Series.toList_map, List.map_map, List.flatMap_map] at this

theorem intercalate_append_cons {t : Token} (ts us : List Token) (tss : List (List Token)) :
    [t].intercalate ((ts ++ t :: us) :: tss) = [t].intercalate (ts :: us :: tss) := by
  cases tss <;> simp [List.intercalate_cons_cons]

theorem tokens_foldl_and (c : Phrase .conjunction) :
    (os.foldl and c).tokens = [.and].intercalate (c.tokens :: os.map tokens) := by
  induction os generalizing c with
  | nil => simp
  | cons o os ih => rw [List.foldl_cons, ih, tokens, intercalate_append_cons, List.map_cons]

theorem tokens_foldl_or (d : Phrase .disjunction) :
    (os.foldl (fun d o => d.or (factor o)) d).tokens =
      [.or].intercalate (d.tokens :: os.map tokens) := by
  induction os generalizing d with
  | nil => simp
  | cons o os ih =>
    rw [List.foldl_cons, ih, tokens, tokens, intercalate_append_cons, List.map_cons]

theorem tokens_ofFactors (os : Series (Phrase .operand)) :
    (ofFactors os).tokens = [.and].intercalate (os.toList.map tokens) :=
  tokens_foldl_and _

theorem tokens_ofAlternatives (os : Series (Phrase .operand)) :
    (ofAlternatives os).tokens = [.or].intercalate (os.toList.map tokens) :=
  tokens_foldl_or _

end Phrase

/-! ### Texts -/

/-- The sign with a space on each side. -/
def spaced (t : Token) : List Char := ' ' :: (t.text.toList ++ [' '])

/-- Spelled texts with a sign between them. -/
theorem Spells.intercalate {α : Type} {t : Token} (ht : t ∈ signs) {text : α → List Char}
    {tokens : α → List Token} {as : List α} (h : ∀ a ∈ as, Spells (text a) (tokens a)) :
    Spells ((spaced t).intercalate (as.map text)) ([t].intercalate (as.map tokens)) := by
  induction as with
  | nil => exact .nil
  | cons a as ih =>
    rw [List.forall_mem_cons] at h
    cases as with
    | nil => simpa using h.1
    | cons b bs =>
      have := h.1.joined ht (ih h.2)
      simpa [List.intercalate_cons_cons, spaced] using this

end GoBuild.Directive
