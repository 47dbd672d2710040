import GoBuild.Proofs.Directive.Derivation

/-!
# Offsets of syntax errors

A syntax error in a `//go:build` expression is told with the byte offset of a token, of an open
parenthesis that is not closed, or of the end of the text. Up to there nothing is wrong yet: the
text before a lexeme spells the tokens before it (`exists_of_scan`), and what the machine has read
at any time goes on to a phrase with no further operand, since the operand that is begun can be
completed and all parentheses can be closed (`Machine.HasRead.exists_phrase`). With the token at
the offset there is no going on: every text that is the same up to the character after it is refused
with the same error (`exists_faulty_of_malformed`).
-/

namespace GoBuild

/-- The fault is in the token. -/
def SyntaxFault.Names : SyntaxFault → Directive.Token → Prop
  | .unexpectedToken text, t => text = t.text
  | .doubleNegation, t => t = .not
  | .strayCharacter c, t => t = .stray c
  | .unexpectedEnd, _ => False
  | .missingCloseParen, _ => False

namespace Directive

/-- The text begins some text that is read. -/
def Viable (before : List Char) : Prop := ∃ rest x, parseModern (before ++ rest) = .ok x

/-- What the fault is about begins the text that stands after `before`. -/
inductive Faulty (offset : Nat) (fault : SyntaxFault) (before : List Char) : List Char → Prop where
  /-- The text ends too early. -/
  | ending (hfault : fault = .unexpectedEnd ∨ fault = .missingCloseParen) :
    Faulty offset fault before []
  /-- A parenthesis is opened and not closed. -/
  | unclosed (after : List Char) (hfault : fault = .missingCloseParen) :
    Faulty offset fault before ('(' :: after)
  /-- A token cannot stand there, whatever comes later than the character after it. -/
  | token (t : Token) (after : List Char) (hfault : fault.Names t)
    (hdecided : ∀ rest : List Char, rest.head? = after.head? →
      parseModern (before ++ (t.text.toList ++ rest)) = .error (.malformed offset fault)) :
    Faulty offset fault before (t.text.toList ++ after)

/-! ### The text before a lexeme -/

/-- Whether the first character of a text is stray depends on it and the next character only. -/
theorem Cut.ofText_eq_stray {c : Char} {cs cs' : List Char} (h : ofText c cs = .stray)
    (hhead : cs'.head? = cs.head?) : ofText c cs' = .stray := by
  cases cs with
  | nil =>
    cases cs' with
    | nil => exact h
    | cons => cases hhead
  | cons d cs =>
    cases cs' with
    | nil => cases hhead
    | cons d' cs' =>
      obtain rfl : d' = d := Option.some.inj hhead
      unfold ofText at h ⊢
      grind

/-- A token that is cut off a text is cut off every text that goes on with the same character. -/
theorem Cut.scanFrom_text_append {c : Char} {cs rest rest' : List Char} {t : Token}
    (hcut : ofText c cs = .token t rest) (hhead : rest'.head? = rest.head?) (offset : Nat) :
    Lexeme.scanFrom [] offset (t.text.toList ++ rest') =
      ⟨t, offset⟩ :: Lexeme.scanFrom [] (offset + Text.utf8Length t.text.toList) rest' := by
  have hagain : ∃ d ds, t.text.toList = d :: ds ∧ ofText d (ds ++ rest') = .token t rest' := by
    rcases cases_of_token hcut with ht | ⟨word, hword, rfl, hend⟩
    · obtain ⟨d, ds, htext, hsign⟩ := ofText_sign ht
      exact ⟨d, ds, htext, hsign rest'⟩
    · rw [Token.text, String.toList_ofList]
      exact ofText_tag hword (hhead ▸ hend)
  obtain ⟨d, ds, htext, hcut'⟩ := hagain
  rw [htext, List.cons_append, Lexeme.scanFrom_of_token hcut', Lexeme.scanFrom_eq_append, htext]
  rfl

/-- The text before a lexeme spells the tokens before it, and the lexemes up to it are found again
when something else follows it, from its second character on. -/
theorem exists_of_scanFrom {text : List Char} {offset : Nat} {done ls : List Lexeme} {l : Lexeme}
    (h : Lexeme.scanFrom [] offset text = done ++ l :: ls) :
    ∃ before after, text = before ++ (l.token.text.toList ++ after) ∧
      offset + Text.utf8Length before = l.offset ∧ Spells before (done.map (·.token)) ∧
      ∀ rest : List Char, rest.head? = after.head? → ∃ ls',
        Lexeme.scanFrom [] offset (before ++ (l.token.text.toList ++ rest)) = done ++ l :: ls' := by
  induction hn : text.length using Nat.strongRecOn generalizing text offset done with
  | ind n ih =>
    subst hn
    cases text with
    | nil => simp at h
    | cons c cs =>
      cases hcut : Cut.ofText c cs with
      | blank =>
        rw [Lexeme.scanFrom_of_blank hcut] at h
        obtain ⟨before, after, rfl, hoffset, hspells, hfound⟩ := ih _ (Nat.lt_succ_self _) h rfl
        have hblank := Cut.ofText_eq_blank_iff.1 hcut
        have hsize : c.utf8Size = 1 := by rcases hblank with rfl | rfl <;> rfl
        refine ⟨c :: before, after, rfl, ?_, .blank hblank hspells, fun rest hrest => ?_⟩
        · rw [Text.utf8Length_cons, hsize, ← hoffset, Nat.add_assoc]
        · rw [List.cons_append, Lexeme.scanFrom_of_blank (Cut.ofText_eq_blank_iff.2 hblank)]
          exact hfound rest hrest
      | token t rest =>
        rw [Lexeme.scanFrom_of_token hcut, Lexeme.scanFrom_eq_append, List.reverse_singleton,
          List.singleton_append] at h
        rw [← Cut.text_append hcut]
        cases done with
        | nil =>
          obtain rfl : ⟨t, offset⟩ = l := (List.cons.inj h).1
          exact ⟨[], rest, rfl, rfl, .nil, fun rest' hrest =>
            ⟨_, Cut.scanFrom_text_append hcut hrest offset⟩⟩
        | cons l' done =>
          obtain ⟨rfl, hrest⟩ := List.cons.inj h
          obtain ⟨before, after, rfl, hoffset, hspells, hfound⟩ :=
            ih _ (Cut.length_lt hcut) hrest rfl
          refine ⟨t.text.toList ++ before, after, (List.append_assoc _ _ _).symm, ?_,
            .of_cut_append hcut hspells, fun rest' hrest' => ?_⟩
          · rw [Text.utf8Length_append, ← hoffset, Nat.add_assoc]
          · obtain ⟨ls', hls'⟩ := hfound rest' hrest'
            have hhead : (before ++ (l.token.text.toList ++ rest')).head? =
                (before ++ (l.token.text.toList ++ after)).head? := by
              simp only [List.head?_append, hrest']
            exact ⟨ls', by rw [List.append_assoc, Cut.scanFrom_text_append hcut hhead, hls']; rfl⟩
      | stray =>
        rw [Lexeme.scanFrom_of_stray hcut] at h
        cases done with
        | nil =>
          obtain rfl : ⟨.stray c, offset⟩ = l := (List.cons.inj h).1
          have htext : (Token.stray c).text.toList = [c] := by simp [Token.text]
          refine ⟨[], cs, by rw [htext]; rfl, rfl, .nil, fun rest hrest => ⟨[], ?_⟩⟩
          rw [htext]
          exact Lexeme.scanFrom_of_stray (Cut.ofText_eq_stray hcut hrest) [] offset
        | cons l' done => simp at h

theorem exists_of_scan {text : List Char} {done ls : List Lexeme} {l : Lexeme}
    (h : Lexeme.scan text = done ++ l :: ls) :
    ∃ before after, text = before ++ (l.token.text.toList ++ after) ∧
      Text.utf8Length before = l.offset ∧ Spells before (done.map (·.token)) ∧
      ∀ rest : List Char, rest.head? = after.head? → ∃ ls',
        Lexeme.scan (before ++ (l.token.text.toList ++ rest)) = done ++ l :: ls' := by
  obtain ⟨before, after, htext, hoffset, hspells, hfound⟩ := exists_of_scanFrom h
  exact ⟨before, after, htext, (Nat.zero_add _).symm.trans hoffset, hspells, hfound⟩

/-! ### Completing what is read -/

/-- The phrase inside all frames, with their parentheses closed. -/
def closeAll : List (Nat × Frame) → Phrase .disjunction → Phrase .disjunction
  | [], d => d
  | (_, f) :: outer, d => closeAll outer (f.close (.group d))

theorem tokens_closeAll (outer : List (Nat × Frame)) (d : Phrase .disjunction) :
    (closeAll outer d).tokens =
      openTokens outer ++ d.tokens ++ List.replicate outer.length .closeParen := by
  induction outer generalizing d with
  | nil => simp [closeAll, openTokens]
  | cons o outer ih =>
    rw [closeAll, ih, Frame.tokens_close, Phrase.tokens, List.length_cons, List.replicate_succ]
    simp [openTokens]

/-- The tokens that close so many parentheses, after a tag if there has to be an operand first. -/
def completion (needsOperand : Bool) (depth : Nat) : List Token :=
  (if needsOperand then [.tag "x"] else []) ++ List.replicate depth .closeParen

theorem countP_begins_completion (needsOperand : Bool) (depth : Nat) :
    (completion needsOperand depth).countP Token.begins = 0 := by
  cases needsOperand <;> simp [completion, Token.begins]

theorem spells_closeParens (depth : Nat) :
    Spells (List.replicate depth ')') (List.replicate depth .closeParen) := by
  induction depth with
  | zero => exact .nil
  | succ depth ih =>
    rw [List.replicate_succ, List.replicate_succ]
    exact .sign (t := .closeParen) (by decide) ih

theorem exists_spells_completion (needsOperand : Bool) (depth : Nat) :
    ∃ rest, Spells (' ' :: rest) (completion needsOperand depth) := by
  have hparens := spells_closeParens depth
  cases needsOperand with
  | false => exact ⟨_, .blank (.inl rfl) hparens⟩
  | true =>
    have hend : ∀ c ∈ (List.replicate depth ')').head?, isTagChar c = false := by
      cases depth with
      | zero => simp
      | succ depth => rintro c ⟨⟩; rfl
    exact ⟨_, .blank (.inl rfl) (Spells.tag (by decide : isTagWord ['x'] = true) hend hparens)⟩

namespace Machine

variable {m : Machine} {ts : List Token} {l : Lexeme}

/-- What the machine has read goes on to a phrase without a further operand. -/
theorem HasRead.exists_phrase (hm : HasRead m ts) : ∃ (needsOperand : Bool) (depth : Nat)
    (p : Phrase .disjunction),
      p.tokens = ts ++ completion needsOperand depth ∧ p.operands ≤ maxOperands := by
  obtain ⟨hholds, hcount, hle⟩ := hm
  -- No token of the completion begins an operand, so only the tokens of the phrase matter.
  suffices ∃ (needsOperand : Bool) (depth : Nat) (p : Phrase .disjunction),
      p.tokens = ts ++ completion needsOperand depth by
    obtain ⟨needsOperand, depth, p, hp⟩ := this
    refine ⟨needsOperand, depth, p, hp, ?_⟩
    rwa [Phrase.operands_eq, hp, List.countP_append, countP_begins_completion, Nat.add_zero,
      ← hcount]
  cases hholds with
  | operand n f outer | negated n f outer =>
    refine ⟨true, outer.length, closeAll outer (f.close (.tag "x")), ?_⟩
    simp [tokens_closeAll, Frame.tokens_close, Phrase.tokens, completion]
  | complete n f outer a =>
    refine ⟨false, outer.length, closeAll outer (f.close a), ?_⟩
    simp [tokens_closeAll, Frame.tokens_close, completion]

/-- Stray characters are not read. -/
theorem HasRead.stray_not_mem (hm : HasRead m ts) (c : Char) : .stray c ∉ ts := by
  obtain ⟨needsOperand, depth, p, hp, -⟩ := hm.exists_phrase
  have hstray := p.stray_not_mem_tokens c
  rw [hp] at hstray
  exact fun hmem => hstray (List.mem_append_left _ hmem)

/-- A text whose tokens the machine has read is viable. -/
theorem HasRead.viable {before : List Char} (hm : HasRead m ts) (h : Spells before ts) :
    Viable before := by
  obtain ⟨needsOperand, depth, p, hp, hle⟩ := hm.exists_phrase
  obtain ⟨rest, hrest⟩ := exists_spells_completion needsOperand depth
  have hspells : Spells (before ++ ' ' :: rest) p.tokens := by
    rw [hp]
    exact h.append hrest (by rintro c ⟨⟩; rfl)
  exact ⟨' ' :: rest, p.expr, by rw [parseModern_of_spells hspells, if_pos hle]⟩

/-! ### Where the machine fails -/

/-- Beginning an operand fails for want of room only. -/
theorem beginOperand_ne_malformed {level : Level} {outer : List (Nat × Level)} {offset : Nat}
    {fault : SyntaxFault} : m.beginOperand level outer ≠ .error (.malformed offset fault) := by
  unfold beginOperand
  split <;> exact nofun

/-- A token that is not read is at fault itself, or it shows that the innermost parenthesis is not
closed. -/
theorem cases_of_step_eq_error {offset : Nat} {fault : SyntaxFault}
    (h : m.step l = .error (.malformed offset fault)) :
    fault.Names l.token ∧ l.offset = offset ∨
      fault = .missingCloseParen ∧ ∃ o ∈ m.outer, o.1 = offset := by
  obtain ⟨t, loc⟩ := l
  obtain ⟨n, level, outer, phase⟩ := m
  cases phase with
  | operand | negated =>
    cases t with
    | tag => cases h
    | openParen => exact absurd h beginOperand_ne_malformed
    | not | and | or | closeParen | stray => cases h <;> exact .inl ⟨rfl, rfl⟩
  | complete x =>
    cases t with
    | and | or => exact absurd h beginOperand_ne_malformed
    | stray => cases h; exact .inl ⟨rfl, rfl⟩
    | closeParen =>
      cases outer with
      | nil => cases h; exact .inl ⟨rfl, rfl⟩
      | cons o outer => cases h
    | tag | not | openParen =>
      cases outer with
      | nil => cases h; exact .inl ⟨rfl, rfl⟩
      | cons o outer => cases h; exact .inr ⟨rfl, o, List.mem_cons_self, rfl⟩

/-- At the end of the text an operand is missing, or a parenthesis. -/
theorem cases_of_finish_eq_error {n offset : Nat} {fault : SyntaxFault}
    (h : m.finish n = .error (.malformed offset fault)) :
    (fault = .unexpectedEnd ∨ fault = .missingCloseParen) ∧ n = offset ∨
      fault = .missingCloseParen ∧ ∃ o ∈ m.outer, o.1 = offset := by
  obtain ⟨k, level, outer, phase⟩ := m
  cases phase with
  | operand | negated =>
    cases outer with
    | nil => cases h; exact .inl ⟨.inl rfl, rfl⟩
    | cons o outer => cases h; exact .inl ⟨.inr rfl, rfl⟩
  | complete x =>
    cases outer with
    | nil => cases h
    | cons o outer => cases h; exact .inr ⟨rfl, o, List.mem_cons_self, rfl⟩

/-- Reading a token opens no parenthesis but its own. -/
theorem mem_outer_of_step {o : Nat × Level} (h : m.step l = .ok m') (ho : o ∈ m'.outer) :
    o ∈ m.outer ∨ l.token = .openParen ∧ l.offset = o.1 := by
  obtain ⟨t, offset⟩ := l
  obtain ⟨n, level, outer, phase⟩ := m
  have hopened {o' : Nat × Level} (hstep : beginOperand ⟨n, level, outer, phase⟩ {} (o' :: outer) =
      .ok m') : o ∈ outer ∨ o' = o := by
    obtain ⟨-, rfl⟩ := beginOperand_eq_ok hstep
    exact (List.mem_cons.1 ho).symm.imp_right Eq.symm
  have hbegun {level' : Level} (hstep : beginOperand ⟨n, level, outer, phase⟩ level' outer =
      .ok m') : o ∈ outer := by
    obtain ⟨-, rfl⟩ := beginOperand_eq_ok hstep
    exact ho
  cases phase with
  | operand | negated =>
    cases t with
    | tag | not => cases h <;> exact .inl ho
    | openParen => exact (hopened h).imp_right fun heq => ⟨rfl, congrArg Prod.fst heq⟩
    | and | or | closeParen | stray => cases h
  | complete x =>
    cases t with
    | and | or => exact .inl (hbegun h)
    | closeParen =>
      cases outer with
      | nil => cases h
      | cons o' outer => cases h; exact .inl (List.mem_cons_of_mem _ ho)
    | tag | not | openParen | stray => cases outer <;> cases h

/-- A parenthesis that is open after a run was open before or is a lexeme of the run. -/
theorem mem_outer_of_foldlM {ls : List Lexeme} {o : Nat × Level}
    (h : ls.foldlM Machine.step m = .ok m') (ho : o ∈ m'.outer) :
    o ∈ m.outer ∨
      ∃ done l rest, ls = done ++ l :: rest ∧ l.token = .openParen ∧ l.offset = o.1 := by
  induction ls generalizing m with
  | nil =>
    cases h
    exact .inl ho
  | cons l ls ih =>
    rw [List.foldlM_cons] at h
    obtain ⟨m₁, hstep, hrun⟩ := Except.bind_eq_ok_iff.1 h
    rcases ih hrun with hmem | ⟨done, l', rest, rfl, hopen, hoffset⟩
    · rcases mem_outer_of_step hstep hmem with hmem | ⟨hopen, hoffset⟩
      · exact .inl hmem
      · exact .inr ⟨[], l, ls, rfl, hopen, hoffset⟩
    · exact .inr ⟨l :: done, l', rest, rfl, hopen, hoffset⟩

/-- A run that fails does so at one of the lexemes. -/
theorem exists_of_foldlM_eq_error {ls : List Lexeme} {e : ConstraintError}
    (h : ls.foldlM Machine.step m = .error e) :
    ∃ done l rest m', ls = done ++ l :: rest ∧ done.foldlM Machine.step m = .ok m' ∧
      m'.step l = .error e := by
  induction ls generalizing m with
  | nil => cases h
  | cons l ls ih =>
    rw [List.foldlM_cons] at h
    cases hstep : m.step l with
    | error e' =>
      rw [hstep] at h
      cases h
      exact ⟨[], l, ls, m, rfl, rfl, hstep⟩
    | ok m₁ =>
      rw [hstep] at h
      obtain ⟨done, l', rest, m', rfl, hrun, hfail⟩ := ih h
      exact ⟨l :: done, l', rest, m', rfl, by rw [List.foldlM_cons, hstep]; exact hrun, hfail⟩

end Machine

/-! ### Where the text goes wrong -/

section

variable {text : List Char} {done ls : List Lexeme} {m : Machine}

/-- The text before a lexeme is viable, if all lexemes before it can be read. -/
theorem exists_viable_of_scan {l : Lexeme} (hscan : Lexeme.scan text = done ++ l :: ls)
    (hrun : done.foldlM Machine.step .start = .ok m) :
    ∃ before after, text = before ++ (l.token.text.toList ++ after) ∧
      Text.utf8Length before = l.offset ∧ Viable before ∧
      ∀ rest : List Char, rest.head? = after.head? → ∃ ls',
        Lexeme.scan (before ++ (l.token.text.toList ++ rest)) = done ++ l :: ls' := by
  obtain ⟨before, after, htext, hoffset, hspells, hfound⟩ := exists_of_scan hscan
  have hread := Machine.hasRead_start.foldlM_step hrun
  exact ⟨before, after, htext, hoffset, hread.viable hspells, hfound⟩

/-- The text before an open parenthesis is viable. -/
theorem exists_viable_of_mem_outer {o : Nat × Level} (hscan : Lexeme.scan text = done ++ ls)
    (hrun : done.foldlM Machine.step .start = .ok m) (ho : o ∈ m.outer) :
    ∃ before after, text = before ++ '(' :: after ∧ Text.utf8Length before = o.1 ∧
      Viable before := by
  rcases Machine.mem_outer_of_foldlM hrun ho with hmem | ⟨front, l, rest, rfl, hopen, hoffset⟩
  · cases hmem
  · rw [List.foldlM_append] at hrun
    obtain ⟨m₁, hfront, -⟩ := Except.bind_eq_ok_iff.1 hrun
    rw [List.append_assoc] at hscan
    obtain ⟨before, after, htext, hbefore, hviable, -⟩ := exists_viable_of_scan hscan hfront
    rw [hopen] at htext
    exact ⟨before, after, htext, hbefore.trans hoffset, hviable⟩

/-- The text is viable to its end, if all its lexemes can be read. -/
theorem viable_of_foldlM (hrun : (Lexeme.scan text).foldlM Machine.step .start = .ok m) :
    Viable text := by
  have hread := Machine.hasRead_start.foldlM_step hrun
  exact hread.viable (spells_iff.2 ⟨rfl, hread.stray_not_mem⟩)

end

/-- **A syntax error is told where the text goes wrong.** The offset lies within the text, where a
character begins or the text ends. What stands before it begins some text that is read, and what
stands there is what the error is about. -/
theorem exists_faulty_of_malformed {text : List Char} {offset : Nat} {fault : SyntaxFault}
    (h : parseModern text = .error (.malformed offset fault)) :
    offset ≤ Text.utf8Length text ∧ ∃ before after, text = before ++ after ∧
      Text.utf8Length before = offset ∧ Viable before ∧ Faulty offset fault before after := by
  suffices hfaulty : ∃ before after, text = before ++ after ∧ Text.utf8Length before = offset ∧
      Viable before ∧ Faulty offset fault before after by
    refine ⟨?_, hfaulty⟩
    obtain ⟨before, after, rfl, rfl, -⟩ := hfaulty
    rw [Text.utf8Length_append]
    exact Nat.le_add_right _ _
  have hparse := h
  rw [parseModern] at hparse
  cases hrun : (Lexeme.scan text).foldlM Machine.step .start with
  | error e =>
    rw [hrun] at hparse
    cases hparse
    obtain ⟨done, l, ls, m, hscan, hdone, hfail⟩ := Machine.exists_of_foldlM_eq_error hrun
    rcases Machine.cases_of_step_eq_error hfail with ⟨hnames, rfl⟩ | ⟨rfl, o, ho, rfl⟩
    · obtain ⟨before, after, htext, hoffset, hviable, hfound⟩ := exists_viable_of_scan hscan hdone
      refine ⟨before, _, htext, hoffset, hviable, .token l.token after hnames fun rest hrest => ?_⟩
      obtain ⟨ls', hls'⟩ := hfound rest hrest
      rw [parseModern, hls', List.foldlM_append, hdone, Except.ok_bind, List.foldlM_cons, hfail]
      rfl
    · obtain ⟨before, after, htext, hoffset, hviable⟩ := exists_viable_of_mem_outer hscan hdone ho
      exact ⟨before, _, htext, hoffset, hviable, .unclosed after rfl⟩
  | ok m =>
    rw [hrun, Except.ok_bind] at hparse
    rcases Machine.cases_of_finish_eq_error hparse with ⟨hfault, rfl⟩ | ⟨rfl, o, ho, rfl⟩
    · exact ⟨text, [], (List.append_nil text).symm, rfl, viable_of_foldlM hrun, .ending hfault⟩
    · obtain ⟨before, after, htext, hoffset, hviable⟩ :=
        exists_viable_of_mem_outer (List.append_nil _).symm hrun ho
      exact ⟨before, _, htext, hoffset, hviable, .unclosed after rfl⟩

theorem exists_faulty_of_malformed_unclosed :
    let text := "é && (b || !(c) d".toList
    parseModern text = .error (.malformed 6 .missingCloseParen) ∧ 6 ≤ Text.utf8Length text ∧
      ∃ before after, text = before ++ after ∧ Text.utf8Length before = 6 ∧ Viable before ∧
        Faulty 6 .missingCloseParen before after := by
  intro text
  have h : parseModern text = .error (.malformed 6 .missingCloseParen) := by decide +kernel
  exact ⟨h, exists_faulty_of_malformed h⟩

end Directive

end GoBuild
