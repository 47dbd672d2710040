import GoBuild.Directive.Token
import GoBuild.Expr.Basic

/-!
# The grammar of `//go:build` expressions

The phrases (`Phrase`) are the derivation trees of the grammar

    disjunction ::= conjunction | disjunction || conjunction
    conjunction ::= operand | conjunction && operand
    operand     ::= atom | ! atom
    atom        ::= tag | ( disjunction )

A phrase derives a list of tokens (`Phrase.tokens`), stands for an expression (`Phrase.expr`), and
has a number of operands (`Phrase.operands`). The grammar is unambiguous: a list of tokens has at
most one derivation (`Phrase.tokens_injective`).
-/

namespace GoBuild.Directive

/-- The symbols of the grammar. -/
inductive Category where
  | disjunction
  | conjunction
  | operand
  | atom

/-- A derivation from a symbol of the grammar. -/
inductive Phrase : Category → Type where
  | tag (name : String) : Phrase .atom
  | group (d : Phrase .disjunction) : Phrase .atom
  | plain (a : Phrase .atom) : Phrase .operand
  | not (a : Phrase .atom) : Phrase .operand
  | factor (o : Phrase .operand) : Phrase .conjunction
  | and (c : Phrase .conjunction) (o : Phrase .operand) : Phrase .conjunction
  | alternative (c : Phrase .conjunction) : Phrase .disjunction
  | or (d : Phrase .disjunction) (c : Phrase .conjunction) : Phrase .disjunction

namespace Phrase

variable {k : Category}

/-- The tokens that the phrase derives. -/
def tokens {k : Category} : Phrase k → List Token
  | tag name => [.tag name]
  | group d => .openParen :: (d.tokens ++ [.closeParen])
  | plain a => a.tokens
  | not a => .not :: a.tokens
  | factor o => o.tokens
  | and c o => c.tokens ++ .and :: o.tokens
  | alternative c => c.tokens
  | or d c => d.tokens ++ .or :: c.tokens

/-- The expression that the phrase stands for. Repeated signs associate to the left. -/
def expr {k : Category} : Phrase k → Expr
  | tag name => .tag name
  | group d => d.expr
  | plain a => a.expr
  | not a => a.expr.not
  | factor o => o.expr
  | and c o => c.expr.and o.expr
  | alternative c => c.expr
  | or d c => d.expr.or c.expr

/-- The number of operands in the phrase: one for each tag and one for each pair of parentheses. -/
def operands {k : Category} : Phrase k → Nat
  | tag _ => 1
  | group d => d.operands + 1
  | plain a => a.operands
  | not a => a.operands
  | factor o => o.operands
  | and c o => c.operands + o.operands
  | alternative c => c.operands
  | or d c => d.operands + c.operands

theorem stray_not_mem_tokens {k : Category} (p : Phrase k) (c : Char) : .stray c ∉ p.tokens := by
  induction p with
  | tag name => simp [tokens]
  | group d ih | not a ih => simpa [tokens] using ih
  | plain a ih | factor o ih | alternative c ih => exact ih
  | and c o ihx ihy | or d c ihx ihy => simp [tokens, ihx, ihy]

/-- The operands are the tags of the expression and the pairs of parentheses. -/
theorem operands_eq_add {k : Category} (p : Phrase k) :
    p.operands = p.expr.atoms.length + p.tokens.count .openParen := by
  induction p with
  | tag name => simp [operands, expr, tokens]
  | group d ih => simp [operands, expr, tokens, ih]; omega
  | plain a ih | factor o ih | alternative c ih => exact ih
  | not a ih => simpa [operands, expr, tokens] using ih
  | and c o ihx ihy | or d c ihx ihy =>
    simp [operands, expr, tokens, ihx, ihy]
    omega

/-! ### Unambiguity -/

/-- The token, standing before a phrase of the category, makes it part of a longer one. -/
def continues : Category → Token → Bool
  | .atom, _ => false
  | .operand, t => t = .not
  | .conjunction, t => t = .not || t = .and
  | .disjunction, t => t = .not || t = .and || t = .or

/-- A phrase of the category that follows the tokens is not part of a longer one. -/
def Detached (k : Category) (before : List Token) : Prop :=
  ∀ t ∈ before.getLast?, continues k t = false

theorem detached_nil (k : Category) : Detached k [] := by simp [Detached]

theorem detached_concat_iff {k : Category} {l : List Token} {t : Token} :
    Detached k (l ++ [t]) ↔ continues k t = false := by simp [Detached]

theorem detached_atom (l : List Token) : Detached .atom l := fun _ _ => rfl

theorem Detached.operand {l : List Token} (h : Detached .conjunction l) : Detached .operand l :=
  fun t ht => (Bool.or_eq_false_iff.1 (h t ht)).1

theorem Detached.conjunction {l : List Token} (h : Detached .disjunction l) :
    Detached .conjunction l :=
  fun t ht => (Bool.or_eq_false_iff.1 (h t ht)).1

/-- Standing last in a list of tokens, the phrase is the only one of its category there, if what
stands before it does not make it part of a longer one. -/
def Determined {k : Category} (p : Phrase k) : Prop :=
  ∀ (q : Phrase k) {l m : List Token}, Detached k l → Detached k m →
    l ++ p.tokens = m ++ q.tokens → p = q ∧ l = m

namespace Determined

variable {k k' : Category} {p q : Phrase k'} {l m : List Token} {t : Token}

theorem of_append_cons (hp : Determined p) (ht : continues k' t = false)
    (h : l ++ t :: p.tokens = m ++ t :: q.tokens) : p = q ∧ l = m := by
  have h : (l ++ [t]) ++ p.tokens = (m ++ [t]) ++ q.tokens := by simpa using h
  obtain ⟨rfl, hlm⟩ := hp q (detached_concat_iff.2 ht) (detached_concat_iff.2 ht) h
  exact ⟨rfl, List.append_cancel_right hlm⟩

/-- A phrase that nothing continues is not the end of one that a sign continues. -/
theorem append_ne_append_cons (hp : Determined p) (hl : Detached k l) (hl' : Detached k' l)
    (ht : continues k t = true) (ht' : continues k' t = false) :
    l ++ p.tokens ≠ m ++ t :: q.tokens := by
  intro h
  have h : l ++ p.tokens = (m ++ [t]) ++ q.tokens := by simpa using h
  obtain ⟨-, rfl⟩ := hp q hl' (detached_concat_iff.2 ht') h
  rw [detached_concat_iff.1 hl] at ht
  cases ht

theorem append_cons_ne_append (hp : Determined p) (hm : Detached k m) (hm' : Detached k' m)
    (ht : continues k t = true) (ht' : continues k' t = false) :
    l ++ t :: p.tokens ≠ m ++ q.tokens := by
  intro h
  have h : (l ++ [t]) ++ p.tokens = m ++ q.tokens := by simpa using h
  obtain ⟨-, rfl⟩ := hp q (detached_concat_iff.2 ht') hm' h
  rw [detached_concat_iff.1 hm] at ht
  cases ht

end Determined

theorem determined_tag (name : String) : Determined (tag name) := by
  intro q l m _ _ h
  cases q with
  | tag name' =>
    obtain ⟨hlm, hname⟩ := List.append_inj' h rfl
    obtain rfl : name = name' := by simpa [tokens] using hname
    exact ⟨rfl, hlm⟩
  | group d =>
    have h : l ++ [.tag name] = (m ++ .openParen :: d.tokens) ++ [.closeParen] := by
      simpa [tokens] using h
    exact absurd (List.append_inj' h rfl).2 (by simp)

theorem determined_group {d : Phrase .disjunction} (hd : Determined d) : Determined (group d) := by
  intro q l m _ _ h
  cases q with
  | tag name =>
    have h : (l ++ .openParen :: d.tokens) ++ [.closeParen] = m ++ [.tag name] := by
      simpa [tokens] using h
    exact absurd (List.append_inj' h rfl).2 (by simp)
  | group d' =>
    have h : (l ++ .openParen :: d.tokens) ++ [.closeParen] =
        (m ++ .openParen :: d'.tokens) ++ [.closeParen] := by simpa [tokens] using h
    obtain ⟨rfl, hlm⟩ := hd.of_append_cons rfl (List.append_cancel_right h)
    exact ⟨rfl, hlm⟩

theorem determined_plain {a : Phrase .atom} (ha : Determined a) : Determined (plain a) := by
  intro q l m hl _ h
  cases q with
  | plain a' =>
    obtain ⟨rfl, hlm⟩ := ha a' (detached_atom _) (detached_atom _) h
    exact ⟨rfl, hlm⟩
  | not a' => exact absurd h (ha.append_ne_append_cons hl (detached_atom _) rfl rfl)

theorem determined_not {a : Phrase .atom} (ha : Determined a) : Determined (not a) := by
  intro q l m _ hm h
  cases q with
  | plain a' => exact absurd h (ha.append_cons_ne_append hm (detached_atom _) rfl rfl)
  | not a' =>
    obtain ⟨rfl, hlm⟩ := ha.of_append_cons rfl h
    exact ⟨rfl, hlm⟩

theorem determined_factor {o : Phrase .operand} (ho : Determined o) : Determined (factor o) := by
  intro q l m hl hm h
  cases q with
  | factor o' =>
    obtain ⟨rfl, hlm⟩ := ho o' hl.operand hm.operand h
    exact ⟨rfl, hlm⟩
  | and c' o' =>
    have h : l ++ o.tokens = (m ++ c'.tokens) ++ .and :: o'.tokens := by simpa [tokens] using h
    exact absurd h (ho.append_ne_append_cons hl hl.operand rfl rfl)

theorem determined_and {c : Phrase .conjunction} {o : Phrase .operand} (hc : Determined c)
    (ho : Determined o) : Determined (and c o) := by
  intro q l m hl hm h
  cases q with
  | factor o' =>
    have h : (l ++ c.tokens) ++ .and :: o.tokens = m ++ o'.tokens := by simpa [tokens] using h
    exact absurd h (ho.append_cons_ne_append hm hm.operand rfl rfl)
  | and c' o' =>
    have h : (l ++ c.tokens) ++ .and :: o.tokens = (m ++ c'.tokens) ++ .and :: o'.tokens := by
      simpa [tokens] using h
    obtain ⟨rfl, hcc⟩ := ho.of_append_cons rfl h
    obtain ⟨rfl, hlm⟩ := hc c' hl hm hcc
    exact ⟨rfl, hlm⟩

theorem determined_alternative {c : Phrase .conjunction} (hc : Determined c) :
    Determined (alternative c) := by
  intro q l m hl hm h
  cases q with
  | alternative c' =>
    obtain ⟨rfl, hlm⟩ := hc c' hl.conjunction hm.conjunction h
    exact ⟨rfl, hlm⟩
  | or d' c' =>
    have h : l ++ c.tokens = (m ++ d'.tokens) ++ .or :: c'.tokens := by simpa [tokens] using h
    exact absurd h (hc.append_ne_append_cons hl hl.conjunction rfl rfl)

theorem determined_or {d : Phrase .disjunction} {c : Phrase .conjunction} (hd : Determined d)
    (hc : Determined c) : Determined (or d c) := by
  intro q l m hl hm h
  cases q with
  | alternative c' =>
    have h : (l ++ d.tokens) ++ .or :: c.tokens = m ++ c'.tokens := by simpa [tokens] using h
    exact absurd h (hc.append_cons_ne_append hm hm.conjunction rfl rfl)
  | or d' c' =>
    have h : (l ++ d.tokens) ++ .or :: c.tokens = (m ++ d'.tokens) ++ .or :: c'.tokens := by
      simpa [tokens] using h
    obtain ⟨rfl, hdd⟩ := hc.of_append_cons rfl h
    obtain ⟨rfl, hlm⟩ := hd d' hl hm hdd
    exact ⟨rfl, hlm⟩

theorem determined {k : Category} (p : Phrase k) : Determined p := by
  -- Repetitions grow to the left in the grammar, so the tokens are compared from the right.
  induction p with
  | tag name => exact determined_tag name
  | group d ih => exact determined_group ih
  | plain a ih => exact determined_plain ih
  | not a ih => exact determined_not ih
  | factor o ih => exact determined_factor ih
  | and c o ihc iho => exact determined_and ihc iho
  | alternative c ih => exact determined_alternative ih
  | or d c ihd ihc => exact determined_or ihd ihc

/-- A list of tokens has at most one derivation. -/
theorem tokens_injective (k : Category) : Function.Injective (tokens (k := k)) :=
  fun p q h => (p.determined q (detached_nil k) (detached_nil k) (congrArg ([] ++ ·) h)).1

end Phrase

end GoBuild.Directive
