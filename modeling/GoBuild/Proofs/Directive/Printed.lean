import GoBuild.Proofs.Directive.Derivation
import GoBuild.Proofs.Expr.LeftNested

/-!
# Reading written expressions

The written form of an expression spells a phrase (`Expr.phrase`). The phrase stands for the
expression with its chains nested to the left, so this is what is read, unless the tags and the
parentheses of the written form are too many (`parseModern_chars`).
-/

namespace GoBuild

namespace Directive.Phrase

/-! ### Putting phrases together -/

/-- The conjunction of the factors of both phrases. -/
def appendAnd (c : Phrase .conjunction) : Phrase .conjunction → Phrase .conjunction
  | factor o => c.and o
  | and c' o => (appendAnd c c').and o

/-- The disjunction of the alternatives of both phrases. -/
def appendOr (d : Phrase .disjunction) : Phrase .disjunction → Phrase .disjunction
  | alternative c => d.or c
  | or d' c => (appendOr d d').or c

/-- The disjunction as an operand in parentheses. -/
def grouped (d : Phrase .disjunction) : Phrase .conjunction := factor (plain (group d))

/-- The disjunction as factors: more than one alternative needs parentheses. -/
def asFactors : Phrase .disjunction → Phrase .conjunction
  | alternative c => c
  | or d c => grouped (or d c)

/-- The disjunction as alternatives, where a conjunction is put in parentheses. -/
def asAlternatives : Phrase .disjunction → Phrase .disjunction
  | alternative (factor o) => alternative (factor o)
  | alternative (and c o) => alternative (grouped (alternative (and c o)))
  | or d c => or d c

/-- The disjunction as an atom: all but a tag needs parentheses. -/
def asAtom : Phrase .disjunction → Phrase .atom
  | alternative (factor (plain (tag name))) => tag name
  | d => group d

theorem tokens_appendAnd (c : Phrase .conjunction) :
    (c' : Phrase .conjunction) → (c.appendAnd c').tokens = c.tokens ++ .and :: c'.tokens
  | factor o => by rw [appendAnd]; rfl
  | and c' o => by rw [appendAnd, tokens, tokens_appendAnd c c', tokens]; simp

theorem tokens_appendOr (d : Phrase .disjunction) :
    (d' : Phrase .disjunction) → (d.appendOr d').tokens = d.tokens ++ .or :: d'.tokens
  | alternative c => by rw [appendOr]; rfl
  | or d' c => by rw [appendOr, tokens, tokens_appendOr d d', tokens]; simp

theorem appendAnd_assoc (c c' : Phrase .conjunction) : (c'' : Phrase .conjunction) →
    (c.appendAnd c').appendAnd c'' = c.appendAnd (c'.appendAnd c'')
  | factor o => by rw [appendAnd, appendAnd, appendAnd]
  | and c'' o => by rw [appendAnd, appendAnd_assoc c c' c'', appendAnd, appendAnd]

theorem appendOr_assoc (d d' : Phrase .disjunction) : (d'' : Phrase .disjunction) →
    (d.appendOr d').appendOr d'' = d.appendOr (d'.appendOr d'')
  | alternative c => by rw [appendOr, appendOr, appendOr]
  | or d'' c => by rw [appendOr, appendOr_assoc d d' d'', appendOr, appendOr]

theorem expr_asFactors (d : Phrase .disjunction) : d.asFactors.expr = d.expr := by
  cases d <;> rfl

theorem expr_asAlternatives : (d : Phrase .disjunction) → d.asAlternatives.expr = d.expr
  | alternative (factor _) | alternative (and _ _) | or _ _ => rfl

theorem expr_asAtom (d : Phrase .disjunction) : d.asAtom.expr = d.expr := by
  unfold asAtom
  split <;> rfl

theorem asFactors_appendOr (d d' : Phrase .disjunction) :
    (d.appendOr d').asFactors = grouped (d.appendOr d') := by
  cases d' <;> rw [appendOr] <;> rfl

theorem asAlternatives_appendOr (d d' : Phrase .disjunction) :
    (d.appendOr d').asAlternatives = d.appendOr d' := by
  cases d' <;> rw [appendOr] <;> rfl

theorem asAlternatives_appendAnd (c c' : Phrase .conjunction) :
    (alternative (c.appendAnd c')).asAlternatives =
      alternative (grouped (alternative (c.appendAnd c'))) := by
  cases c' <;> rw [appendAnd] <;> rfl

theorem asAtom_appendOr (d d' : Phrase .disjunction) :
    (d.appendOr d').asAtom = group (d.appendOr d') := by
  cases d' <;> rw [appendOr] <;> rfl

theorem asAtom_appendAnd (c c' : Phrase .conjunction) :
    (alternative (c.appendAnd c')).asAtom = group (alternative (c.appendAnd c')) := by
  cases c' <;> rw [appendAnd] <;> rfl

end Directive.Phrase

/-! ### The phrase of a written expression -/

namespace Expr

open Directive

/-- The phrase that the written form of the expression spells. -/
def phrase : Expr → Phrase .disjunction
  | tag name => .alternative (.factor (.plain (.tag name)))
  | not x => .alternative (.factor (.not x.phrase.asAtom))
  | and x y => .alternative (x.phrase.asFactors.appendAnd y.phrase.asFactors)
  | or x y => x.phrase.asAlternatives.appendOr y.phrase.asAlternatives

variable {x : Expr}

theorem spells_asFactors (h : Spells x.chars x.phrase.tokens) :
    Spells (wrap x.isOr x.chars) x.phrase.asFactors.tokens := by
  cases x with
  | tag | not | and => exact h
  | or x y =>
    rw [phrase, Phrase.asFactors_appendOr]
    exact h.parentheses

theorem spells_asAlternatives (h : Spells x.chars x.phrase.tokens) :
    Spells (wrap x.isAnd x.chars) x.phrase.asAlternatives.tokens := by
  cases x with
  | tag | not => exact h
  | and x y =>
    rw [phrase, Phrase.asAlternatives_appendAnd]
    exact h.parentheses
  | or x y =>
    rw [phrase, Phrase.asAlternatives_appendOr]
    exact h

theorem spells_asAtom (h : Spells x.chars x.phrase.tokens) :
    Spells (wrap (!x.isTag) x.chars) x.phrase.asAtom.tokens := by
  cases x with
  | tag name => exact h
  | not x => exact h.parentheses
  | and x y =>
    rw [phrase, Phrase.asAtom_appendAnd]
    exact h.parentheses
  | or x y =>
    rw [phrase, Phrase.asAtom_appendOr]
    exact h.parentheses

/-- The written form of an expression spells its phrase. -/
theorem spells_chars (h : ∀ t ∈ x.atoms, isTagWord t.toList = true) :
    Spells x.chars x.phrase.tokens := by
  induction x with
  | tag name =>
    have := Spells.tag (h name (by simp)) (by simp) .nil
    rwa [List.append_nil, String.ofList_toList] at this
  | not x ih => exact .sign (t := .not) (by decide) (spells_asAtom (ih h))
  | and x y ihx ihy =>
    simp only [atoms_and, List.mem_append] at h
    have hx := spells_asFactors (ihx fun t ht => h t (.inl ht))
    have hy := spells_asFactors (ihy fun t ht => h t (.inr ht))
    rw [phrase, Phrase.tokens, Phrase.tokens_appendAnd, chars, List.append_assoc]
    exact hx.joined (t := .and) (by decide) hy
  | or x y ihx ihy =>
    simp only [atoms_or, List.mem_append] at h
    have hx := spells_asAlternatives (ihx fun t ht => h t (.inl ht))
    have hy := spells_asAlternatives (ihy fun t ht => h t (.inr ht))
    rw [phrase, Phrase.tokens_appendOr, chars, List.append_assoc]
    exact hx.joined (t := .or) (by decide) hy

/-- The phrase stands for the expression, and its factors or alternatives, put after others, go on
with their chain. -/
structure StandsFor (d : Phrase .disjunction) (x : Expr) : Prop where
  expr : d.expr = x
  appendAnd : ∀ c, (Phrase.appendAnd c d.asFactors).expr = andChain c.expr x
  appendOr : ∀ d', (Phrase.appendOr d' d.asAlternatives).expr = orChain d'.expr x

theorem standsFor_operand (o : Phrase .operand) (hand : o.expr.isAnd = false)
    (hor : o.expr.isOr = false) : StandsFor (.alternative (.factor o)) o.expr where
  expr := rfl
  appendAnd c := by rw [Phrase.asFactors, Phrase.appendAnd, andChain_of_not_isAnd hand]; rfl
  appendOr d := by rw [Phrase.asAlternatives, Phrase.appendOr, orChain_of_not_isOr hor]; rfl

/-- The phrase of a written expression stands for the expression nested to the left. -/
theorem standsFor_phrase (x : Expr) : StandsFor x.phrase x.leftAssoc := by
  induction x with
  | tag name => exact standsFor_operand (.plain (.tag name)) rfl rfl
  | not x ih =>
    have := standsFor_operand (.not x.phrase.asAtom) rfl rfl
    rwa [Phrase.expr, Phrase.expr_asAtom, ih.expr] at this
  | and x y ihx ihy =>
    have hand : (x.and y).phrase.expr = (x.and y).leftAssoc := by
      rw [phrase, Phrase.expr, ihy.appendAnd, Phrase.expr_asFactors, ihx.expr, leftAssoc]
    refine ⟨hand, fun c => ?_, fun d => ?_⟩
    · rw [phrase, Phrase.asFactors, ← Phrase.appendAnd_assoc, ihy.appendAnd, ihx.appendAnd,
        andChain_assoc, leftAssoc]
    · rw [leftAssoc, orChain_of_not_isOr (isOr_andChain _ _), ← leftAssoc, ← hand, phrase,
        Phrase.asAlternatives_appendAnd, Phrase.appendOr]
      rfl
  | or x y ihx ihy =>
    have hor : (x.or y).phrase.expr = (x.or y).leftAssoc := by
      rw [phrase, ihy.appendOr, Phrase.expr_asAlternatives, ihx.expr, leftAssoc]
    refine ⟨hor, fun c => ?_, fun d => ?_⟩
    · rw [leftAssoc, andChain_of_not_isAnd (isAnd_orChain _ _), ← leftAssoc, ← hor, phrase,
        Phrase.asFactors_appendOr, Phrase.grouped, Phrase.appendAnd]
      rfl
    · rw [phrase, Phrase.asAlternatives_appendOr, ← Phrase.appendOr_assoc, ihy.appendOr,
        ihx.appendOr, orChain_assoc, leftAssoc]

end Expr

/-! ### Reading it back -/

namespace Directive

/-- A text with a derivation has as many operands as tags and opened parentheses. -/
theorem operands_of_spells {text : List Char} {p : Phrase .disjunction} (h : Spells text p.tokens) :
    p.operands = p.expr.atoms.length + text.count '(' := by
  rw [h.count_openParen, p.operands_eq_add]

/-- A written expression is read as the expression nested to the left, unless it has too many tags
and parentheses. -/
theorem parseModern_chars {x : Expr} (h : ∀ t ∈ x.atoms, isTagWord t.toList = true) :
    parseModern x.chars =
      if x.atoms.length + x.chars.count '(' ≤ maxOperands then .ok x.leftAssoc
      else .error .tooComplex := by
  have hspells := Expr.spells_chars h
  have hexpr : x.phrase.expr = x.leftAssoc := (Expr.standsFor_phrase x).expr
  rw [parseModern_of_spells hspells, operands_of_spells hspells, hexpr,
    ← (Expr.reassociates_leftAssoc x).atoms_eq]

/-- A written expression is read as the expression with its chains nested to the left, or refused if
it has too many tags and parentheses. What is read has the same tags in the same order, the same
value, the same directions and the same written form, and is the expression itself if its chains nest
to the left already. -/
theorem parseModern_render {x : Expr} (h : ∀ t ∈ x.atoms, isTagWord t.toList = true) :
    (parseModern x.render.toList =
      if x.atoms.length + x.render.toList.count '(' ≤ maxOperands then .ok x.leftAssoc
      else .error .tooComplex) ∧
    x.Reassociates x.leftAssoc ∧ x.leftAssoc.LeftNested ∧
    x.leftAssoc.atoms = x.atoms ∧ (∀ v, x.leftAssoc.eval v = x.eval v) ∧
    (∀ t, x.leftAssoc.lookup t = x.lookup t) ∧ x.leftAssoc.render = x.render ∧
    (x.leftAssoc = x ↔ x.LeftNested) := by
  have hmoved := x.reassociates_leftAssoc
  rw [Expr.toList_render]
  exact ⟨parseModern_chars h, hmoved, x.leftNested_leftAssoc, hmoved.atoms_eq.symm,
    fun v => (hmoved.eval_eq v).symm, fun t => (hmoved.lookup_eq t).symm,
    congrArg String.ofList hmoved.chars_eq.symm, Expr.leftAssoc_eq_self_iff⟩

theorem parseModern_render_linux :
    let x : Expr := (Expr.tag "linux").and
      ((Expr.tag "amd64").and (.not ((Expr.tag "cgo").or (.tag "race"))))
    (∀ t ∈ x.atoms, isTagWord t.toList = true) ∧
      x.render = "linux && amd64 && !(cgo || race)" ∧
      parseModern x.render.toList = .ok x.leftAssoc ∧ x.leftAssoc ≠ x ∧
      x.leftAssoc.render = x.render := by
  intro x
  have hx : ∀ t ∈ x.atoms, isTagWord t.toList = true := by decide +kernel
  obtain ⟨hread, -, -, -, -, -, hrender, -⟩ := parseModern_render hx
  exact ⟨hx, by decide, hread.trans (if_pos (by decide)), by decide, hrender⟩

end Directive

end GoBuild
