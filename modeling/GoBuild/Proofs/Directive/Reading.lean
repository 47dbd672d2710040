import GoBuild.Directive.Modern
import GoBuild.Proofs.Directive.Grammar
import GoBuild.Proofs.Directive.Spelling
import GoBuild.Proofs.Except

/-!
# Reading phrases

The machine, started anywhere it awaits a phrase, reads the tokens of the phrase to their end
(`Machine.reads`). It charges for each token that begins a further operand (`charge`), and stands on
the level that the operands of the phrase leave behind (`Phrase.after`). A text that spells a phrase
is therefore read as its expression, unless it has too many operands (`parseModern_of_spells`).
-/

namespace GoBuild.Directive

/-- The token begins a further operand. -/
def Token.begins : Token → Bool
  | and => true
  | or => true
  | openParen => true
  | _ => false

/-- The number of operands begun after `n` when `k` more are begun, unless they are too many. -/
def charge (n : Nat) : Nat → Except ConstraintError Nat
  | 0 => .ok n
  | k + 1 => charge n k >>= fun j => if j < maxOperands then .ok (j + 1) else .error .tooComplex

theorem charge_add (n j k : Nat) : charge n (j + k) = charge n j >>= fun i => charge i k := by
  induction k with
  | zero => cases charge n j <;> simp [charge]
  | succ k ih => rw [← Nat.add_assoc, charge, ih, bind_assoc]; rfl

theorem charge_eq {n k : Nat} (hn : n ≤ maxOperands) :
    charge n k = if n + k ≤ maxOperands then .ok (n + k) else .error .tooComplex := by
  induction k with
  | zero => simp [charge, hn]
  | succ k ih =>
    rw [charge, ih]
    split
    · simp only [Except.ok_bind, Nat.lt_iff_add_one_le, Nat.add_assoc]
    · rw [Except.error_bind, if_neg (by omega)]

theorem Machine.beginOperand_eq (m : Machine) (level : Level) (outer : List (Nat × Level)) :
    m.beginOperand level outer =
      charge m.operands 1 >>= fun n => .ok ⟨n, level, outer, .operand⟩ := by
  simp only [beginOperand, charge, Except.ok_bind]
  split <;> rfl

namespace Phrase

theorem operands_eq {k : Category} (p : Phrase k) : p.operands = p.tokens.countP Token.begins + 1 := by
  induction p with
  | tag name => rfl
  | group d ih => rw [operands, ih, tokens, List.countP_cons, List.countP_append]; rfl
  | plain a ih => exact ih
  | not a ih => rw [operands, ih, tokens, List.countP_cons]; rfl
  | factor o ih => exact ih
  | and c o ihc iho =>
    rw [operands, ihc, iho, tokens, List.countP_append, List.countP_cons_of_pos rfl]
    omega
  | alternative c ih => exact ih
  | or d c ihd ihc =>
    rw [operands, ihd, ihc, tokens, List.countP_append, List.countP_cons_of_pos rfl]
    omega

/-- The expression of the last atom of the phrase. -/
def last {k : Category} : Phrase k → Expr
  | tag name => .tag name
  | group d => d.expr
  | plain a => a.last
  | not a => a.last
  | factor o => o.last
  | and _ o => o.last
  | alternative c => c.last
  | or _ c => c.last

/-- The level of the machine when it has read the phrase on `level`, up to its last atom. -/
def after {k : Category} : Phrase k → Level → Level
  | tag _, level => level
  | group _, level => level
  | plain a, level => a.after level
  | not a, level => a.after { level with negated := true }
  | factor o, level => o.after level
  | and c o, level => o.after ((c.after level).andThen c.last)
  | alternative c, level => c.after level
  | or d c, level => c.after ((d.after level).orElse d.last)

theorem last_eq_expr (a : Phrase .atom) : a.last = a.expr := by cases a <;> rfl

theorem after_eq_self (a : Phrase .atom) (level : Level) : a.after level = level := by
  cases a <;> rfl

theorem after_operand (o : Phrase .operand) (alternatives factors : Option Expr) :
    (o.after ⟨alternatives, factors, false⟩).alternatives = alternatives ∧
      (o.after ⟨alternatives, factors, false⟩).factor o.last =
        factors.elim o.expr fun left => left.and o.expr := by
  cases o <;> simp [after, after_eq_self, Level.factor, last, last_eq_expr, expr]

theorem after_conjunction (alternatives : Option Expr) : (c : Phrase .conjunction) →
    (c.after ⟨alternatives, none, false⟩).alternatives = alternatives ∧
      (c.after ⟨alternatives, none, false⟩).factor c.last = c.expr
  | factor o => after_operand o alternatives none
  | and c o => by
    have hc := after_conjunction alternatives c
    have ho := after_operand o alternatives (some c.expr)
    simp [after, Level.andThen, hc, ho, last, expr]

theorem close_after : (d : Phrase .disjunction) → (d.after {}).close d.last = d.expr
  | alternative c => by
    have hc := after_conjunction none c
    simp [after, Level.close, hc, last, expr]
  | or d c => by
    have hc := after_conjunction (some d.expr) c
    rw [after, Level.orElse, close_after d, Level.close]
    simp [hc, last, expr]

end Phrase

/-! ### Single tokens -/

namespace Machine

variable {m : Machine} {l : Lexeme} {x : Expr}

/-- The machine reads a phrase of the category next. -/
def Awaits (m : Machine) (k : Category) : Prop :=
  m.phase = .operand ∨ k = .atom ∧ m.phase = .negated

theorem Awaits.phase_eq {k : Category} (hm : m.Awaits k) (hk : k ≠ .atom) : m.phase = .operand :=
  hm.resolve_right fun h => hk h.1

theorem step_tag {name : String} (hm : m.Awaits .atom) (hl : l.token = .tag name) :
    m.step l = .ok { m with phase := .complete (.tag name) } := by
  rcases hm with hm | ⟨-, hm⟩ <;> simp [step, readOperand, hm, hl]

theorem step_openParen (hm : m.Awaits .atom) (hl : l.token = .openParen) :
    m.step l = m.beginOperand {} ((l.offset, m.level) :: m.outer) := by
  rcases hm with hm | ⟨-, hm⟩ <;> simp [step, readOperand, hm, hl]

theorem step_not (hm : m.phase = .operand) (hl : l.token = .not) :
    m.step l = .ok { m with level := { m.level with negated := true }, phase := .negated } := by
  simp [step, hm, hl]

theorem step_and (hm : m.phase = .complete x) (hl : l.token = .and) :
    m.step l = m.beginOperand (m.level.andThen x) m.outer := by
  simp [step, readAfter, hm, hl]

theorem step_or (hm : m.phase = .complete x) (hl : l.token = .or) :
    m.step l = m.beginOperand (m.level.orElse x) m.outer := by
  simp [step, readAfter, hm, hl]

theorem step_closeParen {opened : Nat} {level : Level} {outer : List (Nat × Level)}
    (hm : m.phase = .complete x) (hout : m.outer = (opened, level) :: outer)
    (hl : l.token = .closeParen) :
    m.step l = .ok ⟨m.operands, level, outer, .complete (m.level.close x)⟩ := by
  simp [step, readAfter, hm, hl, hout]

/-! ### Phrases -/

/-- The machine that has read the phrase, with `n` operands begun. -/
def read {k : Category} (m : Machine) (p : Phrase k) (n : Nat) : Machine :=
  ⟨n, p.after m.level, m.outer, .complete p.last⟩

/-- Reading the tokens of the phrase takes every machine to its end, unless there are too many
operands. -/
def Reads {k : Category} (p : Phrase k) : Prop :=
  ∀ {m : Machine} {ls : List Lexeme}, m.Awaits k → ls.map (·.token) = p.tokens →
    ls.foldlM step m =
      charge m.operands (p.tokens.countP Token.begins) >>= fun n => .ok (m.read p n)

theorem reads_group {d : Phrase .disjunction} (hd : Reads d) : Reads d.group := by
  intro m ls hm hls
  obtain ⟨l, _, rfl, hl, hrest⟩ := List.map_eq_cons_iff.1 hls
  obtain ⟨ds, rs, rfl, hds, hrs⟩ := List.map_eq_append_iff.1 hrest
  obtain ⟨r, rfl, hr⟩ := List.map_eq_singleton_iff.1 hrs
  have hcount : d.group.tokens.countP Token.begins = 1 + d.tokens.countP Token.begins := by
    rw [Phrase.tokens, List.countP_cons_of_pos rfl, List.countP_append]
    exact Nat.add_comm _ _
  rw [hcount, charge_add, List.foldlM_cons, step_openParen hm hl, beginOperand_eq]
  simp only [bind_assoc, Except.ok_bind]
  refine congrArg _ (funext fun n => ?_)
  rw [List.foldlM_append, hd (.inl rfl) hds]
  simp only [bind_assoc, Except.ok_bind, List.foldlM_cons, List.foldlM_nil]
  refine congrArg _ (funext fun n => ?_)
  rw [step_closeParen rfl rfl hr]
  simp [read, Phrase.close_after, Phrase.after, Phrase.last]

/-- Two phrases with a sign between them that begins an operand on `level` are read one after the
other. -/
theorem foldlM_step_sign {k k' : Category} {p : Phrase k} {q : Phrase k'} {sign : Token}
    {level : Level} {ls : List Lexeme} (hp : Reads p) (hq : Reads q) (hsign : sign.begins = true)
    (hstep : ∀ n l, l.token = sign → (m.read p n).step l = (m.read p n).beginOperand level m.outer)
    (hm : m.Awaits k) (hls : ls.map (·.token) = p.tokens ++ sign :: q.tokens) :
    ls.foldlM step m =
      charge m.operands ((p.tokens ++ sign :: q.tokens).countP Token.begins) >>= fun n =>
        .ok ⟨n, q.after level, m.outer, .complete q.last⟩ := by
  obtain ⟨ps, _, rfl, hps, hrest⟩ := List.map_eq_append_iff.1 hls
  obtain ⟨r, qs, rfl, hr, hqs⟩ := List.map_eq_cons_iff.1 hrest
  have hcount : (p.tokens ++ sign :: q.tokens).countP Token.begins =
      p.tokens.countP Token.begins + (1 + q.tokens.countP Token.begins) := by
    rw [List.countP_append, List.countP_cons_of_pos hsign, Nat.add_comm 1]
  rw [hcount, charge_add, List.foldlM_append, hp hm hps]
  simp only [bind_assoc, Except.ok_bind]
  refine congrArg _ (funext fun n => ?_)
  rw [charge_add, List.foldlM_cons, hstep n r hr, beginOperand_eq]
  simp only [bind_assoc, Except.ok_bind]
  refine congrArg _ (funext fun n => ?_)
  exact hq (.inl rfl) hqs

/-- The machine reads every phrase. -/
theorem reads {k : Category} (p : Phrase k) : Reads p := by
  induction p with
  | tag name =>
    intro m ls hm hls
    obtain ⟨l, rfl, hl⟩ := List.map_eq_singleton_iff.1 hls
    rw [List.foldlM_cons, step_tag hm hl]
    rfl
  | group d ih => exact reads_group ih
  | plain a ih => exact fun hm hls => ih (.inl (hm.phase_eq nofun)) hls
  | not a ih =>
    intro m ls hm hls
    obtain ⟨l, as, rfl, hl, has⟩ := List.map_eq_cons_iff.1 hls
    rw [List.foldlM_cons, step_not (hm.phase_eq nofun) hl, Except.ok_bind,
      ih (.inr ⟨rfl, rfl⟩) has]
    rfl
  | factor o ih => exact fun hm hls => ih (.inl (hm.phase_eq nofun)) hls
  | and c o ihc iho =>
    exact fun hm hls => foldlM_step_sign ihc iho rfl (fun _ _ hl => step_and rfl hl) hm hls
  | alternative c ih => exact fun hm hls => ih (.inl (hm.phase_eq nofun)) hls
  | or d c ihd ihc =>
    exact fun hm hls => foldlM_step_sign ihd ihc rfl (fun _ _ hl => step_or rfl hl) hm hls

end Machine

/-- A text that spells a phrase with at most `maxOperands` operands writes the expression of the
phrase, and a text that spells a longer one is refused. -/
theorem parseModern_of_spells {text : List Char} {p : Phrase .disjunction}
    (h : Spells text p.tokens) : parseModern text =
      if p.operands ≤ maxOperands then .ok p.expr else .error .tooComplex := by
  have hstart : charge 1 (p.tokens.countP Token.begins) =
      if p.operands ≤ maxOperands then .ok p.operands else .error .tooComplex := by
    rw [charge_eq (by decide), p.operands_eq, Nat.add_comm]
  rw [parseModern, Machine.reads p (.inl rfl) (spells_iff.1 h).1, Machine.start, hstart]
  split
  · simp [Machine.finish, Machine.read, Phrase.close_after]
  · rfl

end GoBuild.Directive
