import GoBuild.Directive.Legacy
import GoBuild.Proofs.Except

/-!
# The operators of `// +build` text

Reading counts one operator for each literal but the first (`foldlM_addLiteral`, `foldlM_addClause`), so
that a text is refused exactly if it has more literals than `maxLiterals`, and otherwise read as the
disjunction of its clauses (`parseLegacy_eq`).
-/

namespace GoBuild.Directive

/-- The largest number of literals of a `// +build` line, one more than of operators. -/
def maxLiterals : Nat := maxOperators + 1

/-- The number of literals of the text. -/
def literalCount (text : List Char) : Nat := (clauses text).flatten.length

/-- The conjunction that a clause writes. -/
def clause (literals : List (List Char)) : Expr :=
  (Expr.conj? (literals.map literal)).getD (.tag ignoreTag)

theorem ne_nil_of_mem_clauses {text : List Char} {literals : List (List Char)}
    (h : literals ∈ clauses text) : literals ≠ [] := by
  obtain ⟨w, -, rfl⟩ := List.mem_map.1 h
  exact List.splitOn_ne_nil _ _

/-- The outcome of reading with the given number of operators, unless these are too many. -/
def counted (operators : Nat) (x : Expr) : Except ConstraintError Joining :=
  if operators ≤ maxOperators then .ok ⟨operators, some x⟩ else .error .tooComplex

theorem counted_of_le {n : Nat} (h : n ≤ maxOperators) (x : Expr) : counted n x = .ok ⟨n, some x⟩ :=
  if_pos h

theorem counted_of_lt {n : Nat} (h : maxOperators < n) (x : Expr) : counted n x = .error .tooComplex :=
  if_neg (Nat.not_le.2 h)

/-! ### The loop over the literals of a clause -/

/-- After a first literal each one counts. -/
theorem foldlM_addLiteral {n : Nat} (hn : n ≤ maxOperators) (x : Expr) (words : List (List Char)) :
    words.foldlM Joining.addLiteral ⟨n, some x⟩ =
      counted (n + words.length) ((words.map literal).foldl .and x) := by
  induction words generalizing n x with
  | nil => exact (counted_of_le hn x).symm
  | cons word words ih =>
    have hstep : Joining.addLiteral ⟨n, some x⟩ word = counted (n + 1) (.and x (literal word)) := rfl
    have hcount : n + (word :: words).length = n + 1 + words.length := by
      rw [List.length_cons]
      omega
    rw [List.foldlM_cons, hstep, hcount, List.map_cons, List.foldl_cons]
    rcases Nat.lt_or_ge maxOperators (n + 1) with hmany | hfew
    · rw [counted_of_lt hmany, counted_of_lt (by omega), Except.error_bind]
    · rw [counted_of_le hfew, Except.ok_bind, ih hfew]

/-- A clause counts one operator less than it has literals. -/
theorem foldlM_addLiteral_clause {n : Nat} (hn : n ≤ maxOperators) {literals : List (List Char)}
    (hne : literals ≠ []) :
    literals.foldlM Joining.addLiteral { operators := n } =
      counted (n + (literals.length - 1)) (clause literals) := by
  obtain ⟨word, words, rfl⟩ := List.exists_cons_of_ne_nil hne
  have hfirst : Joining.addLiteral { operators := n } word = .ok ⟨n, some (literal word)⟩ := rfl
  rw [List.foldlM_cons, hfirst, Except.ok_bind, foldlM_addLiteral hn]
  rfl

/-! ### The loop over the clauses of a text -/

/-- The first clause does not count an operator between clauses. -/
theorem addClause_first {literals : List (List Char)} (hne : literals ≠ []) :
    Joining.addClause {} literals = counted (literals.length - 1) (clause literals) := by
  have hinner := foldlM_addLiteral_clause (Nat.zero_le maxOperators) hne
  rw [Nat.zero_add] at hinner
  rw [Joining.addClause, hinner]
  rcases Nat.lt_or_ge maxOperators (literals.length - 1) with hmany | hfew
  · rw [counted_of_lt hmany, Except.error_bind]
  · rw [counted_of_le hfew, Except.ok_bind]
    rfl

/-- A further clause counts as many operators as it has literals. -/
theorem addClause_further {n : Nat} (hn : n ≤ maxOperators) (x : Expr) {literals : List (List Char)}
    (hne : literals ≠ []) :
    Joining.addClause ⟨n, some x⟩ literals = counted (n + literals.length) (.or x (clause literals)) := by
  have hpos : 0 < literals.length := List.length_pos_iff.2 hne
  have hcount : n + (literals.length - 1) + 1 = n + literals.length := by omega
  rw [Joining.addClause, foldlM_addLiteral_clause hn hne]
  rcases Nat.lt_or_ge maxOperators (n + (literals.length - 1)) with hmany | hfew
  · rw [counted_of_lt hmany, counted_of_lt (by omega), Except.error_bind]
  · rw [counted_of_le hfew, Except.ok_bind, ← hcount]
    rfl

/-- After a first clause each literal counts. -/
theorem foldlM_addClause {n : Nat} (hn : n ≤ maxOperators) (x : Expr) {cs : List (List (List Char))}
    (hne : ∀ c ∈ cs, c ≠ []) :
    cs.foldlM Joining.addClause ⟨n, some x⟩ =
      counted (n + cs.flatten.length) ((cs.map clause).foldl .or x) := by
  induction cs generalizing n x with
  | nil => exact (counted_of_le hn x).symm
  | cons c cs ih =>
    rw [List.forall_mem_cons] at hne
    have hcount : n + (c :: cs).flatten.length = n + c.length + cs.flatten.length := by
      rw [List.flatten_cons, List.length_append, Nat.add_assoc]
    rw [List.foldlM_cons, addClause_further hn x hne.1, hcount, List.map_cons, List.foldl_cons]
    rcases Nat.lt_or_ge maxOperators (n + c.length) with hmany | hfew
    · rw [counted_of_lt hmany, counted_of_lt (by omega), Except.error_bind]
    · rw [counted_of_le hfew, Except.ok_bind, ih hfew _ hne.2]

/-- Clauses count one operator less than they have literals. -/
theorem foldlM_addClause_clauses {c : List (List Char)} {cs : List (List (List Char))}
    (hne : ∀ d ∈ c :: cs, d ≠ []) :
    (c :: cs).foldlM Joining.addClause {} =
      counted ((c :: cs).flatten.length - 1) ((cs.map clause).foldl .or (clause c)) := by
  rw [List.forall_mem_cons] at hne
  have hpos : 0 < c.length := List.length_pos_iff.2 hne.1
  have hcount : (c :: cs).flatten.length - 1 = c.length - 1 + cs.flatten.length := by
    rw [List.flatten_cons, List.length_append]
    omega
  rw [List.foldlM_cons, addClause_first hne.1, hcount]
  rcases Nat.lt_or_ge maxOperators (c.length - 1) with hmany | hfew
  · rw [counted_of_lt hmany, counted_of_lt (by omega), Except.error_bind]
  · rw [counted_of_le hfew, Except.ok_bind, foldlM_addClause hfew _ hne.2]

/-- A text is refused exactly if it has too many literals, and otherwise read as the disjunction of its
clauses. -/
theorem parseLegacy_eq (text : List Char) : parseLegacy text =
    if literalCount text ≤ maxLiterals then
      .ok ((Expr.disj? ((clauses text).map clause)).getD (.tag ignoreTag))
    else .error .tooComplex := by
  have hne : ∀ c ∈ clauses text, c ≠ [] := fun c => ne_nil_of_mem_clauses
  unfold parseLegacy literalCount
  cases hcs : clauses text with
  | nil => rfl
  | cons c cs =>
    have hlimit : (c :: cs).flatten.length ≤ maxLiterals ↔
        (c :: cs).flatten.length - 1 ≤ maxOperators := Nat.sub_le_iff_le_add.symm
    simp only [foldlM_addClause_clauses (hcs ▸ hne), counted, hlimit]
    split <;> rfl

end GoBuild.Directive
