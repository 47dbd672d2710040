import GoBuild.Proofs.Directive.Reading

/-!
# Derivations of what is read

What the machine has read at any time is a derivation that is not finished: the levels of parentheses
stand for frames of phrases (`Frame`), and the tokens read are those of the frames
(`Machine.Holds`). When the text ends, the only frame left closes to a derivation of the whole text.
So a text is read exactly if it spells a phrase with at most `maxOperands` operands, and what is read
is the expression of this phrase (`parseModern_eq_ok_iff`).
-/

namespace GoBuild.Directive

/-! ### Frames -/

/-- The phrases on one level of parentheses: the finished alternatives, the finished factors of the
present alternative, and whether there is a negation sign before the present operand. -/
structure Frame where
  alternatives : Option (Phrase .disjunction) := none
  factors : Option (Phrase .conjunction) := none
  negated : Bool := false

namespace Frame

variable (f : Frame) (a : Phrase .atom)

/-- The level of the machine that stands for the frame. -/
def level : Level := ⟨f.alternatives.map (·.expr), f.factors.map (·.expr), f.negated⟩

/-- The tokens of the frame. -/
def tokens : List Token :=
  f.alternatives.elim [] (fun d => d.tokens ++ [.or]) ++
    (f.factors.elim [] (fun c => c.tokens ++ [.and]) ++ if f.negated then [.not] else [])

/-- The atom as the operand that it is in the frame. -/
def operand : Phrase .operand := if f.negated then .not a else .plain a

/-- The present alternative, ending with the atom. -/
def factor : Phrase .conjunction := f.factors.elim (.factor (f.operand a)) (.and · (f.operand a))

/-- All that the frame holds, ending with the atom. -/
def close : Phrase .disjunction := f.alternatives.elim (.alternative (f.factor a)) (.or · (f.factor a))

/-- The frame after the atom and a conjunction sign. -/
def andThen : Frame := ⟨f.alternatives, f.factor a, false⟩

/-- The frame after the atom and a disjunction sign. -/
def orElse : Frame := ⟨f.close a, none, false⟩

theorem tokens_empty : ({} : Frame).tokens = [] := rfl

theorem expr_factor : (f.factor a).expr = f.level.factor a.expr := by
  obtain ⟨alternatives, factors, negated⟩ := f
  cases factors <;> cases negated <;> rfl

theorem expr_close : (f.close a).expr = f.level.close a.expr := by
  have h := f.expr_factor a
  obtain ⟨alternatives, factors, negated⟩ := f
  cases alternatives <;> simp [close, level, Level.close, Phrase.expr] at h ⊢ <;> exact h

theorem level_andThen : (f.andThen a).level = f.level.andThen a.expr := by
  simp [andThen, level, Level.andThen, expr_factor]

theorem level_orElse : (f.orElse a).level = f.level.orElse a.expr := by
  simp [orElse, level, Level.orElse, expr_close]

theorem tokens_negated {f : Frame} (hf : f.negated = false) :
    ({ f with negated := true } : Frame).tokens = f.tokens ++ [.not] := by
  simp [tokens, hf]

theorem tokens_close : (f.close a).tokens = f.tokens ++ a.tokens := by
  obtain ⟨alternatives, factors, negated⟩ := f
  cases alternatives <;> cases factors <;> cases negated <;>
    simp [close, factor, operand, tokens, Phrase.tokens]

theorem tokens_andThen : (f.andThen a).tokens = f.tokens ++ a.tokens ++ [.and] := by
  obtain ⟨alternatives, factors, negated⟩ := f
  cases factors <;> cases negated <;> simp [andThen, factor, operand, tokens, Phrase.tokens]

theorem tokens_orElse : (f.orElse a).tokens = f.tokens ++ a.tokens ++ [.or] := by
  simp [orElse, tokens_close, tokens]

end Frame

/-! ### What the machine has read -/

/-- The levels that stand for the frames around the present one. -/
def openLevels (outer : List (Nat × Frame)) : List (Nat × Level) :=
  outer.map fun o => (o.1, o.2.level)

/-- The tokens of the frames around the present one, each with the parenthesis that interrupts it. -/
def openTokens : List (Nat × Frame) → List Token
  | [] => []
  | (_, f) :: outer => openTokens outer ++ f.tokens ++ [.openParen]

namespace Machine

/-- The machine has read the tokens, and its levels stand for frames that hold them. -/
inductive Holds : Machine → List Token → Prop where
  | operand (n : Nat) (f : Frame) (outer : List (Nat × Frame)) (hf : f.negated = false) :
      Holds ⟨n, f.level, openLevels outer, .operand⟩ (openTokens outer ++ f.tokens)
  | negated (n : Nat) (f : Frame) (outer : List (Nat × Frame)) :
      Holds ⟨n, f.level, openLevels outer, .negated⟩ (openTokens outer ++ f.tokens)
  | complete (n : Nat) (f : Frame) (outer : List (Nat × Frame)) (a : Phrase .atom) :
      Holds ⟨n, f.level, openLevels outer, .complete a.expr⟩
        (openTokens outer ++ (f.tokens ++ a.tokens))

variable {m m' : Machine} {ts : List Token} {l : Lexeme}

theorem beginOperand_eq_ok {level : Level} {outer : List (Nat × Level)}
    (h : m.beginOperand level outer = .ok m') :
    m.operands < maxOperands ∧ m' = ⟨m.operands + 1, level, outer, .operand⟩ := by
  unfold beginOperand at h
  split at h
  · rename_i hlt
    exact ⟨hlt, by simpa using h.symm⟩
  · cases h

theorem holds_of_readOperand {n : Nat} {f : Frame} {outer : List (Nat × Frame)} (phase : Phase)
    (h : readOperand ⟨n, f.level, openLevels outer, phase⟩ l = .ok m') :
    Holds m' (openTokens outer ++ f.tokens ++ [l.token]) := by
  obtain ⟨t, offset⟩ := l
  cases t with
  | tag name =>
    cases h
    rw [List.append_assoc]
    exact .complete n f outer (.tag name)
  | openParen =>
    obtain ⟨-, rfl⟩ := beginOperand_eq_ok h
    have := Holds.operand (n + 1) {} ((offset, f) :: outer) rfl
    rwa [Frame.tokens_empty, List.append_nil] at this
  | not | and | or | closeParen | stray => cases h

theorem holds_of_readAfter {n : Nat} {f : Frame} {outer : List (Nat × Frame)} {phase : Phase}
    {a : Phrase .atom} (h : readAfter ⟨n, f.level, openLevels outer, phase⟩ a.expr l = .ok m') :
    Holds m' (openTokens outer ++ (f.tokens ++ a.tokens) ++ [l.token]) := by
  obtain ⟨t, offset⟩ := l
  cases t with
  | and =>
    obtain ⟨-, rfl⟩ := beginOperand_eq_ok h
    have := Holds.operand (n + 1) (f.andThen a) outer rfl
    rwa [f.level_andThen, f.tokens_andThen, ← List.append_assoc] at this
  | or =>
    obtain ⟨-, rfl⟩ := beginOperand_eq_ok h
    have := Holds.operand (n + 1) (f.orElse a) outer rfl
    rwa [f.level_orElse, f.tokens_orElse, ← List.append_assoc] at this
  | closeParen =>
    cases outer with
    | nil => cases h
    | cons o outer =>
      cases h
      have := Holds.complete n o.2 outer (.group (f.close a))
      rw [Phrase.expr, f.expr_close, Phrase.tokens, f.tokens_close] at this
      simpa [openTokens, openLevels] using this
  | tag | not | openParen | stray => cases outer <;> cases h

/-- Reading a token keeps the frames. -/
theorem Holds.step (hm : Holds m ts) (h : m.step l = .ok m') : Holds m' (ts ++ [l.token]) := by
  obtain ⟨t, offset⟩ := l
  cases hm with
  | operand n f outer hf =>
    cases t with
    | not =>
      cases h
      have := Holds.negated n { f with negated := true } outer
      rwa [Frame.tokens_negated hf, ← List.append_assoc] at this
    | tag | openParen => exact holds_of_readOperand .operand h
    | and | or | closeParen | stray => cases h
  | negated n f outer =>
    cases t with
    | tag | openParen => exact holds_of_readOperand .negated h
    | not | and | or | closeParen | stray => cases h
  | complete n f outer a =>
    cases t with
    | stray => cases h
    | tag | not | and | or | openParen | closeParen => exact holds_of_readAfter h

theorem operands_of_beginOperand {level : Level} {outer : List (Nat × Level)}
    (h : m.beginOperand level outer = .ok m') :
    m'.operands = m.operands + 1 ∧ m'.operands ≤ maxOperands := by
  obtain ⟨hlt, rfl⟩ := beginOperand_eq_ok h
  exact ⟨rfl, hlt⟩

/-- Reading a token counts the operand that it begins, and does not pass the limit. -/
theorem operands_of_step (hm : m.operands ≤ maxOperands) (h : m.step l = .ok m') :
    m'.operands = m.operands + (if l.token.begins then 1 else 0) ∧ m'.operands ≤ maxOperands := by
  obtain ⟨t, offset⟩ := l
  obtain ⟨n, level, outer, phase⟩ := m
  cases phase with
  | operand =>
    cases t with
    | openParen => exact operands_of_beginOperand h
    | tag | not => cases h; exact ⟨rfl, hm⟩
    | and | or | closeParen | stray => cases h
  | negated =>
    cases t with
    | openParen => exact operands_of_beginOperand h
    | tag => cases h; exact ⟨rfl, hm⟩
    | not | and | or | closeParen | stray => cases h
  | complete x =>
    cases t with
    | and | or => exact operands_of_beginOperand h
    | closeParen =>
      cases outer with
      | nil => cases h
      | cons => cases h; exact ⟨rfl, hm⟩
    | tag | not | openParen | stray => cases outer <;> cases h

/-- The tokens read, with the operands that they begin. -/
structure HasRead (m : Machine) (ts : List Token) : Prop where
  holds : Holds m ts
  operands : m.operands = ts.countP Token.begins + 1
  le_maxOperands : m.operands ≤ maxOperands

theorem hasRead_start : HasRead start [] where
  holds := .operand 1 {} [] rfl
  operands := rfl
  le_maxOperands := by decide

theorem HasRead.step (hm : HasRead m ts) (h : m.step l = .ok m') : HasRead m' (ts ++ [l.token]) := by
  obtain ⟨hcount, hle⟩ := operands_of_step hm.le_maxOperands h
  refine ⟨hm.holds.step h, ?_, hle⟩
  rw [hcount, hm.operands, List.countP_append, List.countP_singleton]
  omega

theorem HasRead.foldlM_step {ls : List Lexeme} (hm : HasRead m ts)
    (h : ls.foldlM Machine.step m = .ok m') : HasRead m' (ts ++ ls.map (·.token)) := by
  induction ls generalizing m ts with
  | nil =>
    cases h
    simpa using hm
  | cons l ls ih =>
    rw [List.foldlM_cons] at h
    obtain ⟨m₁, hstep, hrest⟩ := Except.bind_eq_ok_iff.1 h
    simpa using ih (hm.step hstep) hrest

/-- When the text ends, what the machine has read is the derivation of an expression. -/
theorem HasRead.finish {offset : Nat} {e : Expr} (hm : HasRead m ts) (h : m.finish offset = .ok e) :
    ∃ p : Phrase .disjunction, p.tokens = ts ∧ p.operands ≤ maxOperands ∧ p.expr = e := by
  obtain ⟨hholds, hcount, hle⟩ := hm
  cases hholds with
  | operand n f outer => cases outer <;> cases h
  | negated n f outer => cases outer <;> cases h
  | complete n f outer a =>
    cases outer with
    | cons o outer => cases h
    | nil =>
      cases h
      have htokens : (f.close a).tokens = openTokens [] ++ (f.tokens ++ a.tokens) := f.tokens_close a
      refine ⟨f.close a, htokens, ?_, f.expr_close a⟩
      rw [Phrase.operands_eq, htokens, ← hcount]
      exact hle

end Machine

/-- What is read is the expression of a derivation of the text. -/
theorem exists_phrase_of_parseModern {text : List Char} {e : Expr} (h : parseModern text = .ok e) :
    ∃ p : Phrase .disjunction, Spells text p.tokens ∧ p.operands ≤ maxOperands ∧ p.expr = e := by
  obtain ⟨m, hrun, hfinish⟩ := Except.bind_eq_ok_iff.1 h
  have hm := Machine.hasRead_start.foldlM_step hrun
  obtain ⟨p, htokens, hle, hexpr⟩ := hm.finish hfinish
  exact ⟨p, spells_iff.2 ⟨htokens.symm, p.stray_not_mem_tokens⟩, hle, hexpr⟩

/-- A text is read exactly if it spells a phrase with at most `maxOperands` operands. It has no other
derivation then, and what is read is the expression of the phrase. -/
theorem parseModern_eq_ok_iff {text : List Char} {e : Expr} : parseModern text = .ok e ↔
    ∃ p : Phrase .disjunction, Spells text p.tokens ∧ p.operands ≤ maxOperands ∧ p.expr = e ∧
      ∀ q : Phrase .disjunction, Spells text q.tokens → q = p := by
  constructor
  · intro h
    obtain ⟨p, hspells, hle, hexpr⟩ := exists_phrase_of_parseModern h
    refine ⟨p, hspells, hle, hexpr, fun q hq => Phrase.tokens_injective _ ?_⟩
    exact hq.tokens_unique hspells
  · rintro ⟨p, hspells, hle, rfl, -⟩
    rw [parseModern_of_spells hspells, if_pos hle]

end GoBuild.Directive
