import GoBuild.Proofs.Directive.Counting
import GoBuild.Proofs.Directive.Reading
import GoBuild.Proofs.Directive.Series
import GoBuild.Proofs.Text.Lines

/-!
# Constraints in both forms

A constraint that both forms of directive can write (`Block`): a conjunction of lines, each a
disjunction of clauses, each a conjunction of literals. One `// +build` line writes one line of it
(`Line.legacyText`), one `//go:build` line writes all of it (`Block.modernText`). Both are read as
the same expression (`parseLegacy_legacyText`, `conj?_lines`, `parseModern_modernText`).
-/

namespace GoBuild.Directive

/-! ### Blanks in tags -/

theorem exists_of_hasCode {rs : Text.CodeRanges} {n : Nat} (h : rs.hasCode n = true) :
    ∃ r ∈ rs, r.1 ≤ n ∧ n ≤ r.2 := by
  induction rs with
  | nil => cases h
  | cons r rs ih =>
    by_cases hr : n ≤ r.2
    · rw [Text.CodeRanges.hasCode_cons_of_le hr] at h
      exact ⟨r, List.mem_cons_self, of_decide_eq_true h, hr⟩
    · rw [Text.CodeRanges.hasCode_cons_of_lt (by omega)] at h
      obtain ⟨r', hr', hn⟩ := ih h
      exact ⟨r', List.mem_cons_of_mem _ hr', hn⟩

theorem not_alphanumeric_of_mem_blankRanges :
    ∀ r ∈ Text.blankRanges, ∀ n ∈ List.range' r.1 (r.2 - r.1 + 1),
      Text.alphabeticRanges.hasCode n = false ∧ Text.numericRanges.hasCode n = false := by
  decide +kernel

/-- No blank can stand in a tag. -/
theorem isBlank_eq_false_of_isTagChar {c : Char} (h : isTagChar c = true) :
    Text.isBlank c = false := by
  refine Bool.eq_false_iff.2 fun hblank => ?_
  obtain ⟨r, hr, hlo, hhi⟩ := exists_of_hasCode hblank
  have hn : c.toNat ∈ List.range' r.1 (r.2 - r.1 + 1) := List.mem_range'_1.2 ⟨hlo, by omega⟩
  obtain ⟨halpha, hnum⟩ := not_alphanumeric_of_mem_blankRanges r hr _ hn
  simp only [isTagChar, isAlphanumeric, Bool.or_eq_true, decide_eq_true_eq] at h
  rcases h with ((h | h) | rfl) | rfl
  · exact Bool.false_ne_true (halpha.symm.trans h)
  · exact Bool.false_ne_true (hnum.symm.trans h)
  · cases hblank
  · cases hblank

/-! ### Literals -/

/-- A tag or its negation. -/
structure Literal where
  negated : Bool
  tag : String
  valid : isTagWord tag.toList = true

namespace Literal

def text (l : Literal) : List Char := (if l.negated then ['!'] else []) ++ l.tag.toList

def phrase (l : Literal) : Phrase .operand :=
  if l.negated then .not (.tag l.tag) else .plain (.tag l.tag)

theorem atoms_phrase (l : Literal) : l.phrase.expr.atoms = [l.tag] := by
  unfold phrase
  split <;> rfl

theorem forall_mem_text (l : Literal) : ∀ c ∈ l.text, c = '!' ∨ isTagChar c = true := by
  intro c hc
  rcases List.mem_append.1 hc with hc | hc
  · split at hc
    · exact .inl (List.mem_singleton.1 hc)
    · cases hc
  · exact .inr ((isTagWord_iff.1 l.valid).2 c hc)

theorem text_ne_nil (l : Literal) : l.text ≠ [] :=
  List.append_ne_nil_of_right_ne_nil _ (isTagWord_iff.1 l.valid).1

theorem spells_text (l : Literal) : Spells l.text l.phrase.tokens := by
  have htag : Spells l.tag.toList [.tag l.tag] := by
    have := Spells.tag l.valid (by simp) .nil
    rwa [List.append_nil, String.ofList_toList] at this
  unfold text phrase
  split
  · exact .sign (t := .not) (by decide) htag
  · exact htag

/-- A literal is read as it stands. -/
theorem literal_text (l : Literal) : literal l.text = l.phrase.expr := by
  obtain ⟨negated, tag, valid⟩ := l
  obtain ⟨hne, hall⟩ := isTagWord_iff.1 valid
  obtain ⟨c, cs, htag⟩ := List.exists_cons_of_ne_nil hne
  have hword : tagOrIgnore (c :: cs) = .tag tag := by
    rw [tagOrIgnore, if_pos (htag ▸ valid), ← htag, String.ofList_toList]
  have hc : c ≠ '!' := by
    rintro rfl
    exact absurd (hall '!' (htag ▸ List.mem_cons_self)) (by decide)
  cases negated with
  | true =>
    show literal ('!' :: tag.toList) = .not (.tag tag)
    rw [htag, ← hword]
    unfold literal
    grind
  | false =>
    show literal tag.toList = .tag tag
    rw [htag, ← hword]
    unfold literal
    grind

theorem isBlank_eq_false (l : Literal) : ∀ c ∈ l.text, Text.isBlank c = false := by
  intro c hc
  rcases l.forall_mem_text c hc with rfl | hc
  · rfl
  · exact isBlank_eq_false_of_isTagChar hc

theorem tight_text (l : Literal) : Text.Tight Text.isBlank l.text :=
  .of_forall l.text_ne_nil l.isBlank_eq_false

theorem comma_not_mem_text (l : Literal) : ',' ∉ l.text := fun hc => by
  rcases l.forall_mem_text ',' hc with h | h
  · cases h
  · exact absurd h (by decide)

end Literal

/-! ### Clauses -/

/-- A conjunction of literals. -/
abbrev Clause := Series Literal

namespace Clause

/-- The clause as a word of a `// +build` line. -/
def legacyText (c : Clause) : List Char := [','].intercalate (c.toList.map Literal.text)

/-- The clause as an operand of a `//go:build` line. -/
def modernText (c : Clause) : List Char :=
  '(' :: ((spaced .and).intercalate (c.toList.map Literal.text) ++ [')'])

def phrase (c : Clause) : Phrase .operand :=
  .plain (.group (.alternative (.ofFactors (c.map Literal.phrase))))

theorem isBlank_eq_false (c : Clause) : ∀ x ∈ c.legacyText, Text.isBlank x = false := by
  refine Text.forall_mem_intercalate (List.forall_mem_singleton.2 rfl) ?_
  simp only [List.forall_mem_map]
  exact fun l _ => l.isBlank_eq_false

theorem tight_legacyText (c : Clause) : Text.Tight Text.isBlank c.legacyText := by
  refine .intercalate (by simp [c.toList_ne_nil]) ?_
  simp only [List.forall_mem_map]
  exact fun l _ => l.tight_text

theorem spells_modernText (c : Clause) : Spells c.modernText c.phrase.tokens := by
  have hinner := Spells.intercalate (t := .and) (by decide)
    fun l (_ : l ∈ c.toList) => l.spells_text
  have := hinner.parentheses
  rw [phrase, Phrase.tokens, Phrase.tokens, Phrase.tokens, Phrase.tokens_ofFactors,
    Series.toList_map, List.map_map]
  exact this

/-- The literals of a word are those of the clause. -/
theorem splitOn_legacyText (c : Clause) :
    c.legacyText.splitOn ',' = c.toList.map Literal.text := by
  refine List.splitOn_intercalate ',' ?_ (by simp [c.toList_ne_nil])
  simp only [List.forall_mem_map]
  exact fun l _ => l.comma_not_mem_text

theorem clause_texts (c : Clause) : clause (c.toList.map Literal.text) = c.phrase.expr := by
  have hread : (c.toList.map Literal.text).map literal =
      (c.map Literal.phrase).toList.map Phrase.expr := by
    simp [Literal.literal_text]
  rw [clause, hread, Phrase.conj?_map_expr]
  rfl

theorem atoms_phrase (c : Clause) : c.phrase.expr.atoms = c.toList.map (·.tag) := by
  calc c.phrase.expr.atoms = c.toList.flatMap fun l => l.phrase.expr.atoms :=
        Phrase.atoms_ofFactors _ c
    _ = c.toList.flatMap fun l => [l.tag] := by simp only [Literal.atoms_phrase]
    _ = c.toList.map (·.tag) := List.map_eq_flatMap.symm

end Clause

/-! ### Lines -/

/-- A disjunction of clauses. -/
abbrev Line := Series Clause

namespace Line

/-- The text of a `// +build` line that writes the line. -/
def legacyText (l : Line) : List Char := [' '].intercalate (l.toList.map Clause.legacyText)

/-- The line as an operand of a `//go:build` line. -/
def modernText (l : Line) : List Char :=
  '(' :: ((spaced .or).intercalate (l.toList.map Clause.modernText) ++ [')'])

def phrase (l : Line) : Phrase .operand :=
  .plain (.group (.ofAlternatives (l.map Clause.phrase)))

/-- The literals of all clauses. -/
def literals (l : Line) : List Literal := l.toList.flatMap Series.toList

theorem tight_legacyText (l : Line) : Text.Tight Text.isBlank l.legacyText := by
  refine .intercalate (by simp [l.toList_ne_nil]) ?_
  simp only [List.forall_mem_map]
  exact fun c _ => c.tight_legacyText

theorem newline_not_mem_legacyText (l : Line) : '\n' ∉ l.legacyText := by
  have hne : ∀ x ∈ l.legacyText, x ≠ '\n' := by
    refine Text.forall_mem_intercalate (List.forall_mem_singleton.2 (by decide)) ?_
    simp only [List.forall_mem_map]
    rintro c - x hx rfl
    cases c.isBlank_eq_false '\n' hx
  exact fun hmem => hne '\n' hmem rfl

theorem spells_modernText (l : Line) : Spells l.modernText l.phrase.tokens := by
  have hinner := Spells.intercalate (t := .or) (by decide)
    fun c (_ : c ∈ l.toList) => c.spells_modernText
  rw [phrase, Phrase.tokens, Phrase.tokens, Phrase.tokens_ofAlternatives, Series.toList_map,
    List.map_map]
  exact hinner.parentheses

theorem words_legacyText (l : Line) :
    Text.words l.legacyText = l.toList.map Clause.legacyText := by
  refine Text.words_intercalate ?_ ?_
  · simp only [List.forall_mem_map]
    exact fun c _ => c.tight_legacyText.ne_nil
  · simp only [List.forall_mem_map]
    exact fun c _ => c.isBlank_eq_false

theorem clauses_legacyText (l : Line) :
    clauses l.legacyText = l.toList.map fun c => c.toList.map Literal.text := by
  rw [clauses, words_legacyText, List.map_map]
  exact List.map_congr_left fun c _ => c.splitOn_legacyText

theorem literalCount_legacyText (l : Line) : literalCount l.legacyText = l.literals.length := by
  rw [literalCount, clauses_legacyText, literals, List.length_flatten, List.length_flatMap]
  simp [Function.comp_def]

/-- The `// +build` line is read as the line it writes, unless it has too many literals. -/
theorem parseLegacy_legacyText (l : Line) :
    parseLegacy l.legacyText =
      if l.literals.length ≤ maxLiterals then .ok l.phrase.expr else .error .tooComplex := by
  have hread : (clauses l.legacyText).map clause =
      (l.map Clause.phrase).toList.map Phrase.expr := by
    simp [clauses_legacyText, Clause.clause_texts]
  rw [parseLegacy_eq, literalCount_legacyText, hread, Phrase.disj?_map_expr]
  rfl

theorem atoms_phrase (l : Line) : l.phrase.expr.atoms = l.literals.map (·.tag) := by
  have hatoms : l.phrase.expr.atoms = l.toList.flatMap fun c => c.phrase.expr.atoms :=
    Phrase.atoms_ofAlternatives _ l
  simp only [hatoms, Clause.atoms_phrase, literals, List.map_flatMap]

end Line

/-! ### Blocks -/

/-- A conjunction of lines. -/
abbrev Block := Series Line

namespace Block

/-- The text of a `//go:build` line that writes the block. -/
def modernText (b : Block) : List Char :=
  (spaced .and).intercalate (b.toList.map Line.modernText)

def phrase (b : Block) : Phrase .disjunction := .alternative (.ofFactors (b.map Line.phrase))

/-- The expression of the block. -/
def expr (b : Block) : Expr := b.phrase.expr

/-- The literals of all lines. -/
def literals (b : Block) : List Literal := b.toList.flatMap Line.literals

/-- The number of tags and of pairs of parentheses that the `//go:build` line has. -/
def size (b : Block) : Nat := b.literals.length + b.modernText.count '('

theorem spells_modernText (b : Block) : Spells b.modernText b.phrase.tokens := by
  have := Spells.intercalate (t := .and) (by decide)
    fun l (_ : l ∈ b.toList) => l.spells_modernText
  rw [phrase, Phrase.tokens, Phrase.tokens_ofFactors, Series.toList_map, List.map_map]
  exact this

theorem tight_modernText (b : Block) : Text.Tight Text.isBlank b.modernText := by
  refine .intercalate (by simp [b.toList_ne_nil]) ?_
  simp only [List.forall_mem_map]
  exact fun l _ => ⟨⟨'(', _, rfl, rfl⟩, '(' :: _, ')', rfl, rfl⟩

theorem newline_not_mem_modernText (b : Block) : '\n' ∉ b.modernText :=
  b.spells_modernText.newline_not_mem

theorem atoms_expr (b : Block) : b.expr.atoms = b.literals.map (·.tag) := by
  have hatoms : b.expr.atoms = b.toList.flatMap fun l => l.phrase.expr.atoms :=
    Phrase.atoms_ofFactors _ b
  simp only [hatoms, Line.atoms_phrase, literals, List.map_flatMap]

/-- The conjunction of the expressions of the lines. -/
theorem conj?_lines (b : Block) : Expr.conj? (b.toList.map (·.phrase.expr)) = some b.expr := by
  have := Phrase.conj?_map_expr (b.map Line.phrase)
  rwa [Series.toList_map, List.map_map] at this

/-- The `//go:build` line is read as the block it writes, unless it is too large. -/
theorem parseModern_modernText (b : Block) :
    parseModern b.modernText = if b.size ≤ maxOperands then .ok b.expr else .error .tooComplex := by
  have htags : b.phrase.expr.atoms.length = b.literals.length := by
    rw [← expr, atoms_expr, List.length_map]
  have hsize : b.phrase.operands = b.size := by
    rw [Phrase.operands_eq_add, ← b.spells_modernText.count_openParen, htags, size]
  rw [parseModern_of_spells b.spells_modernText, hsize]
  rfl

/-- Every line has a literal, so there are no more lines than tags and parentheses. -/
theorem length_le_size (b : Block) : b.toList.length ≤ b.size := by
  have hline : ∀ l : Line, 1 ≤ l.literals.length := fun l => by simp [Line.literals, Series.toList]
  have hlines : b.toList.length ≤ b.literals.length := by
    unfold literals
    induction b.toList with
    | nil => exact Nat.zero_le _
    | cons l ls ih =>
      have := hline l
      rw [List.flatMap_cons, List.length_append, List.length_cons]
      omega
  exact Nat.le_trans hlines (Nat.le_add_right _ _)

end Block

end GoBuild.Directive
