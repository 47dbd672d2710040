import GoBuild.Directive.Token
import GoBuild.Proofs.Text.Lines

/-!
# Spelled tokens

A text spells a list of tokens (`Spells`) if it consists of them in their order, with spaces and tabs
between them, and if each tag is a maximal run of tag characters. The lexer finds the tokens that a
text spells, and a text spells the tokens found in it unless one of them is stray (`spells_iff`).
-/

namespace GoBuild.Directive

/-- The tokens that are no tags. -/
def signs : List Token := [.not, .and, .or, .openParen, .closeParen]

/-- The text consists of the tokens in their order. Spaces and tabs may stand around them, and where
a tag ends there is no further tag character. -/
inductive Spells : List Char → List Token → Prop where
  | nil : Spells [] []
  | blank {c : Char} {text : List Char} {ts : List Token} (hc : c = ' ' ∨ c = '\t')
      (h : Spells text ts) : Spells (c :: text) ts
  | sign {t : Token} {text : List Char} {ts : List Token} (ht : t ∈ signs) (h : Spells text ts) :
      Spells (t.text.toList ++ text) (t :: ts)
  | tag {word text : List Char} {ts : List Token} (hword : isTagWord word = true)
      (hend : ∀ c ∈ text.head?, isTagChar c = false) (h : Spells text ts) :
      Spells (word ++ text) (.tag (String.ofList word) :: ts)

theorem isTagWord_iff {word : List Char} :
    isTagWord word = true ↔ word ≠ [] ∧ ∀ c ∈ word, isTagChar c = true := by
  simp [isTagWord]

/-! ### One token -/

namespace Cut

variable {c : Char} {cs rest : List Char} {t : Token}

theorem ofText_eq_blank_iff : ofText c cs = .blank ↔ c = ' ' ∨ c = '\t' := by
  unfold ofText
  split <;> grind

theorem ofText_of_isTagChar (hc : isTagChar c = true) : ofText c cs =
    .token (.tag (String.ofList (c :: cs.takeWhile isTagChar))) (cs.dropWhile isTagChar) := by
  have hne : ∀ d, isTagChar d = false → c ≠ d := by
    rintro d hd rfl
    rw [hc] at hd
    cases hd
  simp only [ofText, hne ' ' rfl, hne '\t' rfl, hne '(' rfl, hne ')' rfl, hne '!' rfl, hne '&' rfl,
    hne '|' rfl, hc, or_self, if_true, if_false]

/-- A token that is cut off is a sign, or a tag that no tag character follows. -/
theorem cases_of_token (h : ofText c cs = .token t rest) :
    t ∈ signs ∨ ∃ word, isTagWord word = true ∧ t = .tag (String.ofList word) ∧
      ∀ d ∈ rest.head?, isTagChar d = false := by
  unfold ofText at h
  split at h
  · cases h
  split at h
  · cases h; exact .inl (by decide)
  split at h
  · cases h; exact .inl (by decide)
  split at h
  · cases h; exact .inl (by decide)
  split at h
  · split at h <;> cases h; exact .inl (by decide)
  split at h
  · split at h <;> cases h; exact .inl (by decide)
  split at h
  · cases h
    rename_i hc
    refine .inr ⟨_, isTagWord_iff.2 ⟨List.cons_ne_nil _ _, ?_⟩, rfl, fun d hd => ?_⟩
    · exact List.forall_mem_cons.2 ⟨hc, fun d hd => List.all_eq_true.1 List.all_takeWhile d hd⟩
    · exact Text.eq_false_of_mem_head?_dropWhile hd
  · cases h

/-- A sign is cut off whatever follows it. -/
theorem ofText_sign (ht : t ∈ signs) :
    ∃ c cs, t.text.toList = c :: cs ∧ ∀ rest, ofText c (cs ++ rest) = .token t rest := by
  simp only [signs, List.mem_cons, List.not_mem_nil, or_false] at ht
  rcases ht with rfl | rfl | rfl | rfl | rfl
  all_goals exact ⟨_, _, rfl, fun _ => rfl⟩

/-- A tag is cut off where no tag character follows it. -/
theorem ofText_tag {word : List Char} (hword : isTagWord word = true)
    (hend : ∀ c ∈ rest.head?, isTagChar c = false) :
    ∃ c cs, word = c :: cs ∧ ofText c (cs ++ rest) = .token (.tag (String.ofList word)) rest := by
  obtain ⟨hne, hall⟩ := isTagWord_iff.1 hword
  obtain ⟨c, cs, rfl⟩ := List.exists_cons_of_ne_nil hne
  have hcs : ∀ d ∈ cs, isTagChar d = true := fun d hd => hall d (List.mem_cons_of_mem _ hd)
  refine ⟨c, cs, rfl, ?_⟩
  rw [ofText_of_isTagChar (hall c List.mem_cons_self), Text.takeWhile_append_eq hcs hend,
    Text.dropWhile_append_eq hcs hend]

end Cut

/-! ### All tokens -/

/-- A token that is cut off a text is cut off what is left when the end of the text is taken away. -/
theorem Spells.of_cut_append {c : Char} {cs before after : List Char} {t : Token} {ts : List Token}
    (hcut : Cut.ofText c cs = .token t (before ++ after)) (h : Spells before ts) :
    Spells (t.text.toList ++ before) (t :: ts) := by
  rcases Cut.cases_of_token hcut with ht | ⟨word, hword, rfl, hend⟩
  · exact .sign ht h
  · rw [Token.text, String.toList_ofList]
    refine .tag hword (fun d hd => hend d ?_) h
    rw [List.head?_append, Option.mem_def.1 hd]
    rfl

theorem Spells.of_cut {c : Char} {cs rest : List Char} {t : Token} {ts : List Token}
    (hcut : Cut.ofText c cs = .token t rest) (h : Spells rest ts) : Spells (c :: cs) (t :: ts) := by
  rw [← Cut.text_append hcut]
  exact .of_cut_append (hcut.trans (by rw [List.append_nil])) h

theorem Spells.stray_not_mem {text : List Char} {ts : List Token} (h : Spells text ts) (c : Char) :
    .stray c ∉ ts := by
  induction h with
  | nil => exact List.not_mem_nil
  | blank _ _ ih => exact ih
  | sign ht _ ih =>
    rw [List.mem_cons, not_or]
    refine ⟨?_, ih⟩
    rintro rfl
    simp [signs] at ht
  | tag _ _ _ ih => simpa using ih

/-- The lexer finds the tokens that a text spells. -/
theorem Spells.map_scanFrom {text : List Char} {ts : List Token} (h : Spells text ts)
    (offset : Nat) : (Lexeme.scanFrom [] offset text).map (·.token) = ts := by
  induction h generalizing offset with
  | nil => simp
  | blank hc _ ih => rw [Lexeme.scanFrom_of_blank (Cut.ofText_eq_blank_iff.2 hc), ih]
  | @sign t text ts ht _ ih =>
    obtain ⟨c, cs, htext, hcut⟩ := Cut.ofText_sign ht
    rw [htext, List.cons_append, Lexeme.scanFrom_of_token (hcut _), Lexeme.scanFrom_eq_append]
    simp [ih]
  | @tag word text ts hword hend _ ih =>
    obtain ⟨c, cs, rfl, hcut⟩ := Cut.ofText_tag hword hend
    rw [List.cons_append, Lexeme.scanFrom_of_token hcut, Lexeme.scanFrom_eq_append]
    simp [ih]

/-- A text spells the tokens found in it, if none of them is stray. -/
theorem spells_map_scanFrom {text : List Char} {offset : Nat}
    (h : ∀ c, .stray c ∉ (Lexeme.scanFrom [] offset text).map (·.token)) :
    Spells text ((Lexeme.scanFrom [] offset text).map (·.token)) := by
  induction hn : text.length using Nat.strongRecOn generalizing text offset with
  | ind n ih =>
    subst hn
    cases text with
    | nil => simpa using Spells.nil
    | cons c cs =>
      cases hcut : Cut.ofText c cs with
      | blank =>
        rw [Lexeme.scanFrom_of_blank hcut] at h ⊢
        exact .blank (Cut.ofText_eq_blank_iff.1 hcut) (ih _ (Nat.lt_succ_self _) h rfl)
      | token t rest =>
        rw [Lexeme.scanFrom_of_token hcut, Lexeme.scanFrom_eq_append] at h ⊢
        simp only [List.reverse_singleton, List.singleton_append, List.map_cons, List.mem_cons,
          not_or] at h ⊢
        exact .of_cut hcut (ih _ (Cut.length_lt hcut) (fun d => (h d).2) rfl)
      | stray =>
        rw [Lexeme.scanFrom_of_stray hcut] at h
        exact absurd (by simp) (h c)

/-- A text spells the tokens that the lexer finds in it, if none of them is stray, and no others. -/
theorem spells_iff {text : List Char} {ts : List Token} :
    Spells text ts ↔ (Lexeme.scan text).map (·.token) = ts ∧ ∀ c, .stray c ∉ ts := by
  constructor
  · exact fun h => ⟨h.map_scanFrom 0, h.stray_not_mem⟩
  · rintro ⟨rfl, h⟩
    exact spells_map_scanFrom h

/-! ### Texts side by side -/

theorem Spells.append {text text' : List Char} {ts us : List Token} (ht : Spells text ts)
    (hu : Spells text' us) (hmeet : ∀ c ∈ text'.head?, isTagChar c = false) :
    Spells (text ++ text') (ts ++ us) := by
  induction ht with
  | nil => exact hu
  | blank hc _ ih => exact .blank hc ih
  | sign ht _ ih =>
    rw [List.append_assoc]
    exact .sign ht ih
  | @tag word text ts hword hend _ ih =>
    rw [List.append_assoc]
    refine .tag hword ?_ ih
    cases text with
    | nil => exact hmeet
    | cons c cs => exact hend

theorem Spells.parentheses {text : List Char} {ts : List Token} (h : Spells text ts) :
    Spells ('(' :: (text ++ [')'])) (.openParen :: (ts ++ [.closeParen])) :=
  .sign (t := .openParen) (by decide)
    (h.append (.sign (t := .closeParen) (by decide) .nil) (by rintro c ⟨⟩; rfl))

/-- A sign between two texts, with a space on each side. -/
theorem Spells.joined {text text' : List Char} {ts us : List Token} {t : Token} (ht : t ∈ signs)
    (hl : Spells text ts) (hr : Spells text' us) :
    Spells (text ++ (' ' :: (t.text.toList ++ ' ' :: text'))) (ts ++ t :: us) :=
  hl.append (.blank (.inl rfl) (.sign ht (.blank (.inl rfl) hr))) (by rintro c ⟨⟩; rfl)

/-- As many parentheses are opened in a text as tokens open one. -/
theorem Spells.count_openParen {text : List Char} {ts : List Token} (h : Spells text ts) :
    text.count '(' = ts.count .openParen := by
  induction h with
  | nil => rfl
  | blank hc _ ih =>
    rw [List.count_cons_of_ne (by rcases hc with rfl | rfl <;> decide), ih]
  | @sign t text ts ht _ ih =>
    have hcount : ∀ t ∈ signs, t.text.toList.count '(' = [t].count .openParen := by decide
    rw [List.count_append, ih, hcount t ht, ← List.count_append, List.singleton_append]
  | @tag word text ts hword _ _ ih =>
    have hnot : '(' ∉ word := fun hmem => absurd ((isTagWord_iff.1 hword).2 _ hmem) (by decide)
    rw [List.count_append, List.count_eq_zero.2 hnot, ih, Nat.zero_add,
      List.count_cons_of_ne (by simp)]

theorem Spells.newline_not_mem {text : List Char} {ts : List Token} (h : Spells text ts) :
    '\n' ∉ text := by
  induction h with
  | nil => exact List.not_mem_nil
  | blank hc _ ih =>
    rw [List.mem_cons, not_or]
    exact ⟨by rcases hc with rfl | rfl <;> decide, ih⟩
  | @sign t text ts ht _ ih =>
    have hsign : ∀ t ∈ signs, '\n' ∉ t.text.toList := by decide
    rw [List.mem_append, not_or]
    exact ⟨hsign t ht, ih⟩
  | tag hword _ _ ih =>
    rw [List.mem_append, not_or]
    exact ⟨fun hmem => absurd ((isTagWord_iff.1 hword).2 _ hmem) (by decide), ih⟩

/-- A text spells at most one list of tokens. -/
theorem Spells.tokens_unique {text : List Char} {ts us : List Token} (ht : Spells text ts)
    (hu : Spells text us) : ts = us :=
  (spells_iff.1 ht).1.symm.trans (spells_iff.1 hu).1

end GoBuild.Directive
