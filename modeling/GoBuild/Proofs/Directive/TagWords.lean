import GoBuild.Proofs.Directive.Counting
import GoBuild.Proofs.Directive.Derivation
import GoBuild.Proofs.Except
import GoBuild.Proofs.Expr.Fold
import GoBuild.Source.Header

/-!
# Tags of what is read

Whatever a directive line of either form writes, its tags are tag words
(`isTagWord_of_parseLine`).
-/

namespace GoBuild.Directive

/-! ### Modern lines -/

theorem Spells.isTagWord_of_mem {text : List Char} {ts : List Token} (h : Spells text ts)
    {name : String} (hmem : .tag name ∈ ts) : isTagWord name.toList = true := by
  induction h with
  | nil => cases hmem
  | blank _ _ ih => exact ih hmem
  | sign ht _ ih =>
    rcases List.mem_cons.1 hmem with rfl | hmem
    · simp [signs] at ht
    · exact ih hmem
  | tag hword _ _ ih =>
    rcases List.mem_cons.1 hmem with heq | hmem
    · cases heq
      rwa [String.toList_ofList]
    · exact ih hmem

theorem Phrase.tag_mem_tokens {k : Category} {p : Phrase k} {t : String} (h : t ∈ p.expr.atoms) :
    .tag t ∈ p.tokens := by
  induction p with
  | tag name => simpa [expr, tokens] using h
  | group d ih | not a ih => simpa [tokens] using ih h
  | plain a ih | factor o ih | alternative c ih => exact ih h
  | and c o ihx ihy | or d c ihx ihy =>
    simp only [expr, Expr.atoms_and, Expr.atoms_or, List.mem_append] at h
    simp only [tokens, List.mem_append, List.mem_cons]
    rcases h with h | h
    · exact .inl (ihx h)
    · exact .inr (.inr (ihy h))

theorem isTagWord_of_parseModern {text : List Char} {x : Expr} (h : parseModern text = .ok x)
    {t : String} (ht : t ∈ x.atoms) : isTagWord t.toList = true := by
  obtain ⟨p, hspells, -, rfl⟩ := exists_phrase_of_parseModern h
  exact hspells.isTagWord_of_mem (Phrase.tag_mem_tokens ht)

/-! ### Legacy lines -/

theorem isTagWord_ignoreTag : isTagWord ignoreTag.toList = true := by decide +kernel

theorem isTagWord_of_tagOrIgnore {word : List Char} {t : String}
    (ht : t ∈ (tagOrIgnore word).atoms) : isTagWord t.toList = true := by
  unfold tagOrIgnore at ht
  rw [Expr.atoms_tag, List.mem_singleton] at ht
  subst ht
  split
  · rename_i hword
    rwa [String.toList_ofList]
  · exact isTagWord_ignoreTag

theorem isTagWord_of_literal {word : List Char} {t : String} (ht : t ∈ (literal word).atoms) :
    isTagWord t.toList = true := by
  unfold literal at ht
  split at ht
  · exact List.mem_singleton.1 ht ▸ isTagWord_ignoreTag
  · exact List.mem_singleton.1 ht ▸ isTagWord_ignoreTag
  · exact isTagWord_of_tagOrIgnore ht
  · exact isTagWord_of_tagOrIgnore ht

theorem isTagWord_of_clause {literals : List (List Char)} {t : String}
    (ht : t ∈ (clause literals).atoms) : isTagWord t.toList = true := by
  unfold clause at ht
  cases hx : Expr.conj? (literals.map literal) with
  | none =>
    rw [hx] at ht
    exact List.mem_singleton.1 ht ▸ isTagWord_ignoreTag
  | some x =>
    rw [hx] at ht
    obtain ⟨y, hy, ht⟩ := Expr.mem_atoms_of_conj? hx ht
    obtain ⟨word, -, rfl⟩ := List.mem_map.1 hy
    exact isTagWord_of_literal ht

theorem isTagWord_of_parseLegacy {text : List Char} {x : Expr} (h : parseLegacy text = .ok x)
    {t : String} (ht : t ∈ x.atoms) : isTagWord t.toList = true := by
  rw [parseLegacy_eq] at h
  split at h
  · cases h
    cases hx : Expr.disj? ((clauses text).map clause) with
    | none =>
      rw [hx] at ht
      exact List.mem_singleton.1 ht ▸ isTagWord_ignoreTag
    | some x =>
      rw [hx] at ht
      obtain ⟨y, hy, ht⟩ := Expr.mem_atoms_of_disj? hx ht
      obtain ⟨literals, -, rfl⟩ := List.mem_map.1 hy
      exact isTagWord_of_clause ht
  · cases h

/-! ### Lines and headers -/

theorem isTagWord_of_parseLine {line : String} {x : Expr} (h : parseLine line = .ok x)
    {t : String} (ht : t ∈ x.atoms) : isTagWord t.toList = true := by
  unfold parseLine at h
  split at h
  · exact isTagWord_of_parseModern h ht
  · exact isTagWord_of_parseLegacy h ht
  · cases h

end GoBuild.Directive

namespace GoBuild.Source

/-- The tags of the constraint of a header are tag words. -/
theorem Header.isTagWord_of_constraint {h : Header} {x : Expr} (hx : h.constraint = .ok (some x))
    {t : String} (ht : t ∈ x.atoms) : Directive.isTagWord t.toList = true := by
  unfold constraint at hx
  split at hx
  · obtain ⟨_, hline, hsome⟩ := Except.map_eq_ok_iff.1 hx
    cases hsome
    exact Directive.isTagWord_of_parseLine hline ht
  split at hx
  · obtain ⟨xs, hlines, hconj⟩ := Except.map_eq_ok_iff.1 hx
    obtain ⟨y, hy, ht⟩ := Expr.mem_atoms_of_conj? hconj ht
    obtain ⟨line, -, hline⟩ : ∃ line ∈ h.plusBuild, Directive.parseLine line = .ok y := by
      have := List.mem_map_of_mem (f := Except.ok (ε := ConstraintError)) hy
      rw [← Except.mapM_eq_ok_iff.1 hlines] at this
      exact List.mem_map.1 this
    exact Directive.isTagWord_of_parseLine hline ht
  · cases hx

end GoBuild.Source
