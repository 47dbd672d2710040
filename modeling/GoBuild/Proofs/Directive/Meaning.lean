import GoBuild.Proofs.Directive.Counting
import GoBuild.Proofs.Directive.Spelling
import GoBuild.Proofs.Expr.Fold
import GoBuild.Proofs.Text.Lines

/-!
# The meaning of `// +build` text

A text falls in one way into fields between blanks, each of literals between commas (`HasFields`).
Each literal asks for one value of one tag (`Asks`), and the text is true if some field has all its
literals true (`FieldsTrue`). Unless it has too many literals, a text is read as an expression that
is true exactly where the text is (`exists_fields_parseLegacy`).
-/

namespace GoBuild.Directive

/-! ### Fields -/

/-- Literals that make up a field with commas between them. -/
structure IsField (literals : List (List Char)) : Prop where
  comma_not_mem : ∀ l ∈ literals, ',' ∉ l
  isBlank_eq_false : ∀ l ∈ literals, ∀ c ∈ l, Text.isBlank c = false
  text_ne_nil : [','].intercalate literals ≠ []

/-- The text consists of the fields, in their order, and of blanks, at least one between two
fields. -/
inductive HasFields : List Char → List (List (List Char)) → Prop
  | nil : HasFields [] []
  | blank {c : Char} {text : List Char} {fields : List (List (List Char))}
      (hc : Text.isBlank c = true) (h : HasFields text fields) : HasFields (c :: text) fields
  | field {literals : List (List Char)} {text : List Char} {fields : List (List (List Char))}
      (hfield : IsField literals) (hend : ∀ c ∈ text.head?, Text.isBlank c = true)
      (h : HasFields text fields) :
      HasFields ([','].intercalate literals ++ text) (literals :: fields)

namespace IsField

variable {literals : List (List Char)}

theorem ne_nil (h : IsField literals) : literals ≠ [] := by
  rintro rfl
  exact h.text_ne_nil rfl

theorem splitOn_intercalate (h : IsField literals) :
    ([','].intercalate literals).splitOn ',' = literals :=
  List.splitOn_intercalate ',' h.comma_not_mem h.ne_nil

theorem isBlank_intercalate (h : IsField literals) :
    ∀ c ∈ [','].intercalate literals, Text.isBlank c = false :=
  Text.forall_mem_intercalate (List.forall_mem_singleton.2 rfl) h.isBlank_eq_false

/-- A word without blanks is a field. -/
theorem of_word {w : List Char} (hne : w ≠ []) (hw : ∀ c ∈ w, Text.isBlank c = false) :
    IsField (w.splitOn ',') where
  comma_not_mem _ hl hmem := (Text.mem_of_mem_splitOn hl _ hmem).2 rfl
  isBlank_eq_false _ hl c hc := hw c (Text.mem_of_mem_splitOn hl c hc).1
  text_ne_nil := by rwa [List.intercalate_splitOn]

end IsField

theorem clauses_cons_of_isBlank {c : Char} (hc : Text.isBlank c = true) (text : List Char) :
    clauses (c :: text) = clauses text := by
  rw [clauses, Text.words_cons_of_isBlank hc, clauses]

theorem clauses_append {w text : List Char} (hne : w ≠ [])
    (hw : ∀ c ∈ w, Text.isBlank c = false) (hend : ∀ c ∈ text.head?, Text.isBlank c = true) :
    clauses (w ++ text) = w.splitOn ',' :: clauses text := by
  rw [clauses, Text.words_append hne hw hend, List.map_cons, clauses]

theorem HasFields.clauses_eq {text : List Char} {fields : List (List (List Char))}
    (h : HasFields text fields) : clauses text = fields := by
  induction h with
  | nil => rfl
  | blank hc _ ih => rw [clauses_cons_of_isBlank hc, ih]
  | field hfield hend _ ih =>
    rw [clauses_append hfield.text_ne_nil hfield.isBlank_intercalate hend,
      hfield.splitOn_intercalate, ih]

theorem hasFields_clauses (text : List Char) : HasFields text (clauses text) := by
  induction hlength : text.length using Nat.strong_induction_on generalizing text with
  | _ n ih =>
    cases text with
    | nil => exact .nil
    | cons c cs =>
      cases hc : Text.isBlank c with
      | true =>
        rw [clauses_cons_of_isBlank hc]
        exact .blank hc (ih cs.length (by simp [← hlength]) cs rfl)
      | false =>
        -- The word up to the next blank is the first field.
        let rest := cs.dropWhile (!Text.isBlank ·)
        let w := c :: cs.takeWhile (!Text.isBlank ·)
        have htext : w ++ rest = c :: cs := by simp [w, rest]
        have hw : ∀ d ∈ w, Text.isBlank d = false := by
          refine List.forall_mem_cons.2 ⟨hc, fun d hd => ?_⟩
          simpa using List.mem_takeWhile_imp hd
        have hend : ∀ d ∈ rest.head?, Text.isBlank d = true := fun d hd => by
          simpa using Text.eq_false_of_mem_head?_dropWhile hd
        have hfield : IsField (w.splitOn ',') := .of_word (List.cons_ne_nil _ _) hw
        have hshort : rest.length < n := by
          have hle : rest.length ≤ cs.length := (List.dropWhile_suffix _).length_le
          rw [List.length_cons] at hlength
          omega
        rw [← htext, clauses_append (List.cons_ne_nil _ _) hw hend]
        simpa using HasFields.field hfield hend (ih rest.length hshort rest rfl)

/-- Every text falls into fields in one way. -/
theorem hasFields_iff {text : List Char} {fields : List (List (List Char))} :
    HasFields text fields ↔ fields = clauses text :=
  ⟨fun h => h.clauses_eq.symm, fun h => h ▸ hasFields_clauses text⟩

/-! ### Literals -/

/-- The literal asks for the tag, to be set or, in the negative direction, not to be set. -/
inductive Asks : List Char → Polarity → String → Prop
  | tag {name : List Char} (h : isTagWord name = true) : Asks name .positive (String.ofList name)
  | not {name : List Char} (h : isTagWord name = true) :
      Asks ('!' :: name) .negative (String.ofList name)
  | sign : Asks ['!'] .positive ignoreTag
  | signs (rest : List Char) : Asks ('!' :: '!' :: rest) .positive ignoreTag
  | malformed {word : List Char} (h : isTagWord word = false) (hsign : word.head? ≠ some '!') :
      Asks word .positive ignoreTag
  | notMalformed {word : List Char} (h : isTagWord word = false) (hsign : word.head? ≠ some '!')
      (hne : word ≠ []) : Asks ('!' :: word) .negative ignoreTag

/-- The expression that asks for the tag. -/
def asking : Polarity → String → Expr
  | .positive, t => .tag t
  | .negative, t => .not (.tag t)

theorem eval_asking {v : String → Bool} {d : Polarity} {t : String} :
    (asking d t).eval v = true ↔ v t = d.isPositive := by
  cases d <;> simp [asking, Expr.eval, Polarity.isPositive]

theorem asking_injective {d d' : Polarity} {t t' : String} (h : asking d t = asking d' t') :
    d = d' ∧ t = t' := by
  cases d <;> cases d' <;> simp_all [asking]

theorem head?_ne_of_isTagWord {name : List Char} (h : isTagWord name = true) :
    name.head? ≠ some '!' := by
  intro hsign
  obtain ⟨rest, rfl⟩ := List.head?_eq_some_iff.1 hsign
  exact absurd ((isTagWord_iff.1 h).2 '!' List.mem_cons_self) (by decide)

theorem literal_of_head?_ne {word : List Char} (hsign : word.head? ≠ some '!') :
    literal word = tagOrIgnore word := by
  unfold literal
  split <;> simp_all

theorem literal_sign_cons {word : List Char} (hne : word ≠ []) (hsign : word.head? ≠ some '!') :
    literal ('!' :: word) = .not (tagOrIgnore word) := by
  unfold literal
  split <;> simp_all

theorem tagOrIgnore_of_isTagWord {name : List Char} (h : isTagWord name = true) :
    tagOrIgnore name = .tag (String.ofList name) := by
  rw [tagOrIgnore, if_pos h]

theorem tagOrIgnore_of_malformed {word : List Char} (h : isTagWord word = false) :
    tagOrIgnore word = .tag ignoreTag := by
  rw [tagOrIgnore, if_neg (by simp [h])]

/-- A literal is read as what it asks for. -/
theorem Asks.literal_eq {word : List Char} {d : Polarity} {t : String} (h : Asks word d t) :
    literal word = asking d t := by
  cases h with
  | tag h => rw [literal_of_head?_ne (head?_ne_of_isTagWord h), tagOrIgnore_of_isTagWord h, asking]
  | not h =>
    rw [literal_sign_cons (isTagWord_iff.1 h).1 (head?_ne_of_isTagWord h),
      tagOrIgnore_of_isTagWord h, asking]
  | sign => rfl
  | signs rest => rfl
  | malformed h hsign => rw [literal_of_head?_ne hsign, tagOrIgnore_of_malformed h, asking]
  | notMalformed h hsign hne =>
    rw [literal_sign_cons hne hsign, tagOrIgnore_of_malformed h, asking]

/-- There is no literal that asks for nothing. -/
theorem exists_asks (word : List Char) : ∃ d t, Asks word d t := by
  by_cases hsign : word.head? = some '!'
  · obtain ⟨rest, rfl⟩ := List.head?_eq_some_iff.1 hsign
    cases rest with
    | nil => exact ⟨_, _, .sign⟩
    | cons c cs =>
      by_cases hc : c = '!'
      · rw [hc]
        exact ⟨_, _, .signs cs⟩
      · cases h : isTagWord (c :: cs) with
        | true => exact ⟨_, _, .not h⟩
        | false => exact ⟨_, _, .notMalformed h (by simpa using hc) (List.cons_ne_nil _ _)⟩
  · cases h : isTagWord word with
    | true => exact ⟨_, _, .tag h⟩
    | false => exact ⟨_, _, .malformed h hsign⟩

theorem Asks.unique {word : List Char} {d d' : Polarity} {t t' : String} (h : Asks word d t)
    (h' : Asks word d' t') : d = d' ∧ t = t' :=
  asking_injective (h.literal_eq.symm.trans h'.literal_eq)

/-- A literal asks for one value of one tag. -/
theorem exists_asks_iff (word : List Char) : ∃ d t, ∀ d' t', Asks word d' t' ↔ d' = d ∧ t' = t := by
  obtain ⟨d, t, hasks⟩ := exists_asks word
  refine ⟨d, t, fun d' t' => ⟨fun h => h.unique hasks, ?_⟩⟩
  rintro ⟨rfl, rfl⟩
  exact hasks

/-! ### Truth -/

/-- The literal gets what it asks for. -/
def LiteralTrue (v : String → Bool) (word : List Char) : Prop :=
  ∃ d t, Asks word d t ∧ v t = d.isPositive

/-- Some field has all its literals true. A text without fields stands for the tag `ignore`. -/
def FieldsTrue (v : String → Bool) (fields : List (List (List Char))) : Prop :=
  (fields = [] ∧ v ignoreTag = true) ∨ ∃ literals ∈ fields, ∀ word ∈ literals, LiteralTrue v word

section

variable {v : String → Bool}

theorem eval_literal {word : List Char} : (literal word).eval v = true ↔ LiteralTrue v word := by
  constructor
  · intro h
    obtain ⟨d, t, hasks⟩ := exists_asks word
    rw [hasks.literal_eq, eval_asking] at h
    exact ⟨d, t, hasks, h⟩
  · rintro ⟨d, t, hasks, h⟩
    rwa [hasks.literal_eq, eval_asking]

theorem eval_clause {literals : List (List Char)} (hne : literals ≠ []) :
    (clause literals).eval v = true ↔ ∀ word ∈ literals, LiteralTrue v word := by
  obtain ⟨l, ls, rfl⟩ := List.exists_cons_of_ne_nil hne
  have hvalue : (clause (l :: ls)).eval v = ((l :: ls).map literal).all (Expr.eval v) :=
    Expr.eval_conj? v ((l :: ls).map literal)
  simp only [hvalue, List.all_eq_true, List.forall_mem_map, eval_literal]

theorem eval_fields {fields : List (List (List Char))} (h : ∀ literals ∈ fields, literals ≠ []) :
    ((Expr.disj? (fields.map clause)).getD (.tag ignoreTag)).eval v = true ↔
      FieldsTrue v fields := by
  cases fields with
  | nil => simp [FieldsTrue, Expr.disj?, Expr.eval]
  | cons f fs =>
    have hvalue : ((Expr.disj? ((f :: fs).map clause)).getD (.tag ignoreTag)).eval v =
        ((f :: fs).map clause).any (Expr.eval v) := Expr.eval_disj? v ((f :: fs).map clause)
    have hclause : ∀ literals ∈ f :: fs,
        (clause literals).eval v = true ↔ ∀ word ∈ literals, LiteralTrue v word :=
      fun literals hmem => eval_clause (h literals hmem)
    rw [hvalue, FieldsTrue, List.any_map, List.any_eq_true]
    simp only [List.cons_ne_nil, false_and, false_or]
    exact exists_congr fun literals => and_congr_right fun hmem => hclause literals hmem

end

theorem literalCount_of_hasFields {text : List Char} {fields : List (List (List Char))}
    (h : HasFields text fields) : literalCount text = fields.flatten.length := by
  rw [literalCount, h.clauses_eq]

theorem parseLegacy_eq_tooComplex_iff {text : List Char} :
    parseLegacy text = .error .tooComplex ↔ 101 < literalCount text := by
  rw [parseLegacy_eq, ← Nat.not_le]
  by_cases h : literalCount text ≤ maxLiterals
  · simp [h, show literalCount text ≤ 101 from h]
  · simp [h, show ¬ literalCount text ≤ 101 from h]

/-- A text with at most 101 literals is read as an expression that is true where the text is. -/
theorem exists_parseLegacy_eq_ok {text : List Char} (h : literalCount text ≤ maxLiterals) :
    ∃ x, parseLegacy text = .ok x ∧ ∀ v, x.eval v = true ↔ FieldsTrue v (clauses text) :=
  ⟨_, (parseLegacy_eq text).trans (if_pos h), fun _ => eval_fields fun _ => ne_nil_of_mem_clauses⟩

/-- **The meaning of a text.** It has fields in one way, of literals that each ask for one value of one
tag, and is read as an expression that is true exactly where some field is, or refused if there are more
than 101 literals. -/
theorem exists_fields_parseLegacy (text : List Char) :
    ∃ fields, (∀ fs, HasFields text fs ↔ fs = fields) ∧
      (∀ literals ∈ fields, ∀ word ∈ literals, ∃ d t, ∀ d' t', Asks word d' t' ↔ d' = d ∧ t' = t) ∧
      if fields.flatten.length ≤ 101 then
        ∃ x, parseLegacy text = .ok x ∧ ∀ v, x.eval v = true ↔ FieldsTrue v fields
      else parseLegacy text = .error .tooComplex := by
  refine ⟨clauses text, fun fs => hasFields_iff, fun literals _ word _ => exists_asks_iff word, ?_⟩
  split
  · rename_i hle
    exact exists_parseLegacy_eq_ok hle
  · rename_i hgt
    exact (parseLegacy_eq text).trans (if_neg hgt)

end GoBuild.Directive
