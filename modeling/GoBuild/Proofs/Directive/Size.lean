import GoBuild.Proofs.Directive.Derivation
import GoBuild.Proofs.Directive.Line
import GoBuild.Proofs.Directive.Meaning
import GoBuild.Proofs.Expr.Depth
import GoBuild.Proofs.Expr.Fold
import GoBuild.Proofs.Source.Header

/-!
# The size of what is read

What a directive line writes is limited in the number of its tags and in its depth: a `//go:build` line
by the number of its operands (`size_of_parseModern`), a `// +build` line by the number of its literals
(`size_of_parseLegacy`). With the limit on the number of `// +build` lines this bounds the constraint
of every file, and how deep the calls of a recursion over it are nested
(`Header.depth_le_of_constraint`).
-/

namespace GoBuild.Directive

variable {text : List Char} {x : Expr}

/-! ### Modern lines -/

/-- By how much the depth of a phrase can be larger than the number of its operands: a negation sign
is no operand, but each atom has at most one. -/
def Category.slack : Category → Nat
  | .atom => 0
  | _ => 1

theorem Phrase.depth_expr_le {k : Category} (p : Phrase k) : p.expr.depth ≤ p.operands + k.slack := by
  induction p with
  | tag name => exact Nat.le_refl _
  | group d ih => exact ih
  | plain a ih => exact Nat.le_succ_of_le ih
  | not a ih => exact Nat.succ_le_succ ih
  | factor o ih | alternative c ih => exact ih
  | and c o ihx ihy | or d c ihx ihy =>
    -- Either side has an operand, which makes up for the sign between them.
    simp only [expr, Expr.depth, operands, Category.slack, Phrase.operands_eq] at ihx ihy ⊢
    omega

theorem Phrase.length_atoms_le {k : Category} (p : Phrase k) :
    p.expr.atoms.length ≤ p.operands := by
  rw [p.operands_eq_add]
  exact Nat.le_add_right _ _

theorem size_of_parseModern (h : parseModern text = .ok x) :
    x.atoms.length ≤ maxOperands ∧ x.depth ≤ maxOperands + 1 := by
  obtain ⟨p, -, hle, rfl⟩ := exists_phrase_of_parseModern h
  exact ⟨p.length_atoms_le.trans hle, p.depth_expr_le.trans (Nat.add_le_add_right hle 1)⟩

/-! ### Legacy lines -/

theorem length_atoms_literal (word : List Char) : (literal word).atoms.length = 1 := by
  unfold literal
  split <;> rfl

theorem negatesTagsOnly_literal (word : List Char) : (literal word).NegatesTagsOnly := by
  unfold literal
  split
  · trivial
  · trivial
  · exact rfl
  · trivial

theorem length_flatMap_atoms_literal (literals : List (List Char)) :
    ((literals.map literal).flatMap Expr.atoms).length = literals.length := by
  induction literals with
  | nil => rfl
  | cons l ls ih =>
    rw [List.map_cons, List.flatMap_cons, List.length_append, length_atoms_literal, ih,
      List.length_cons, Nat.add_comm]

/-- A clause that is not empty has as many tags as literals. -/
theorem length_atoms_clause {literals : List (List Char)} (h : literals ≠ []) :
    (clause literals).atoms.length = literals.length := by
  obtain ⟨l, ls, rfl⟩ := List.exists_cons_of_ne_nil h
  have hatoms := Expr.atoms_conj? ((l :: ls).map literal)
  rw [← length_flatMap_atoms_literal, ← hatoms]
  rfl

theorem negatesTagsOnly_clause (literals : List (List Char)) : (clause literals).NegatesTagsOnly := by
  cases literals with
  | nil => trivial
  | cons l ls =>
    refine Expr.negatesTagsOnly_foldl And.intro (negatesTagsOnly_literal l) fun y hy => ?_
    obtain ⟨word, -, rfl⟩ := List.mem_map.1 hy
    exact negatesTagsOnly_literal word

theorem length_flatMap_atoms_clause {cs : List (List (List Char))} (h : ∀ c ∈ cs, c ≠ []) :
    ((cs.map clause).flatMap Expr.atoms).length = cs.flatten.length := by
  induction cs with
  | nil => rfl
  | cons c cs ih =>
    rw [List.forall_mem_cons] at h
    rw [List.map_cons, List.flatMap_cons, List.length_append, length_atoms_clause h.1, ih h.2,
      List.flatten_cons, List.length_append]

theorem size_of_parseLegacy (h : parseLegacy text = .ok x) :
    x.atoms.length ≤ maxLiterals ∧ x.depth ≤ maxLiterals + 1 := by
  rw [parseLegacy_eq] at h
  split at h
  · rename_i hle
    suffices hsize : x.atoms.length ≤ maxLiterals ∧ x.NegatesTagsOnly from
      ⟨hsize.1, (Expr.depth_le_of_negatesTagsOnly hsize.2).trans (Nat.add_le_add_right hsize.1 1)⟩
    have hatoms := Expr.atoms_disj? ((clauses text).map clause)
    have hne : ∀ c ∈ clauses text, c ≠ [] := fun c => ne_nil_of_mem_clauses
    have hcount := length_flatMap_atoms_clause hne
    rw [← hatoms] at hcount
    cases hcs : clauses text with
    | nil =>
      rw [hcs] at h
      cases h
      exact ⟨by decide, trivial⟩
    | cons c cs =>
      rw [hcs] at h hcount
      cases h
      refine ⟨?_, ?_⟩
      · rw [literalCount, hcs, ← hcount] at hle
        exact hle
      · refine Expr.negatesTagsOnly_foldl And.intro (negatesTagsOnly_clause c) fun y hy => ?_
        obtain ⟨literals, -, rfl⟩ := List.mem_map.1 hy
        exact negatesTagsOnly_clause literals
  · cases h

theorem size_of_isLegacy {line : String} (hline : isLegacy line = true)
    (h : parseLine line = .ok x) : x.atoms.length ≤ maxLiterals ∧ x.depth ≤ maxLiterals + 1 := by
  obtain ⟨text, htext⟩ := exists_parseLine_eq_parseLegacy hline
  exact size_of_parseLegacy (htext ▸ h)

theorem size_of_parseLine {line : String} (h : parseLine line = .ok x) :
    x.atoms.length ≤ maxOperands ∧ x.depth ≤ maxOperands + 1 := by
  unfold parseLine at h
  split at h
  · exact size_of_parseModern h
  · obtain ⟨hatoms, hdepth⟩ := size_of_parseLegacy h
    exact ⟨hatoms.trans (by decide), hdepth.trans (by decide)⟩
  · cases h

end GoBuild.Directive

/-! ### Headers -/

namespace GoBuild

open Source

theorem Expr.length_flatMap_atoms_le {xs : List Expr} {n : Nat}
    (h : ∀ x ∈ xs, x.atoms.length ≤ n) : (xs.flatMap Expr.atoms).length ≤ n * xs.length := by
  induction xs with
  | nil => exact Nat.zero_le _
  | cons x xs ih =>
    rw [List.forall_mem_cons] at h
    have hrest := ih h.2
    rw [List.flatMap_cons, List.length_append, List.length_cons, Nat.mul_succ]
    omega

/-- The size of a conjunction, from the number and the size of its members. -/
theorem Expr.size_of_conj? {xs : List Expr} {x : Expr} (hx : conj? xs = some x) {n d : Nat}
    (h : ∀ y ∈ xs, y.atoms.length ≤ n ∧ y.depth ≤ d) :
    x.atoms.length ≤ n * xs.length ∧ x.depth + 1 ≤ d + xs.length := by
  cases xs with
  | nil => cases hx
  | cons y ys =>
    cases hx
    refine ⟨?_, ?_⟩
    · rw [atoms_foldl_and, ← List.flatMap_cons]
      exact length_flatMap_atoms_le fun z hz => (h z hz).1
    · rw [List.forall_mem_cons] at h
      have hand (a b : Expr) : (and a b).depth = max a.depth b.depth + 1 := rfl
      have hdepth := depth_foldl_le hand h.1.2 fun z hz => (h.2 z hz).2
      rw [List.length_cons]
      omega

namespace Source.Header

variable {content : List UInt8} {h : Header} {x : Expr}

theorem size_of_goBuild {line : String} (hgo : h.goBuild = some line)
    (hx : h.constraint = .ok (some x)) :
    x.atoms.length ≤ Directive.maxOperands ∧ x.depth ≤ Directive.maxOperands + 1 := by
  simp only [constraint, hgo] at hx
  obtain ⟨_, hparse, hsome⟩ := Except.map_eq_ok_iff.1 hx
  cases hsome
  exact Directive.size_of_parseLine hparse

theorem size_of_plusBuild (hread : ofContent content = .ok h) (hgo : h.goBuild = none)
    (hx : h.constraint = .ok (some x)) :
    x.atoms.length ≤ Directive.maxLiterals * maxPlusBuildLines ∧
      x.depth + 1 ≤ Directive.maxLiterals + 1 + maxPlusBuildLines := by
  simp only [constraint, hgo] at hx
  split at hx
  · rename_i hlines
    obtain ⟨xs, hparse, hconj⟩ := Except.map_eq_ok_iff.1 hx
    have hmap := Except.mapM_eq_ok_iff.1 hparse
    have hlength : xs.length = h.plusBuild.length := by
      simpa using (congrArg List.length hmap).symm
    have hsize : ∀ y ∈ xs,
        y.atoms.length ≤ Directive.maxLiterals ∧ y.depth ≤ Directive.maxLiterals + 1 := by
      intro y hy
      have hmem : Except.ok y ∈ h.plusBuild.map Directive.parseLine := by
        rw [hmap]
        exact List.mem_map_of_mem hy
      obtain ⟨line, hline, hok⟩ := List.mem_map.1 hmem
      exact Directive.size_of_isLegacy (isLegacy_of_mem_plusBuild hread hline) hok
    obtain ⟨hatoms, hdepth⟩ := Expr.size_of_conj? hconj hsize
    rw [hlength] at hatoms hdepth
    exact ⟨hatoms.trans (Nat.mul_le_mul_left _ hlines),
      hdepth.trans (Nat.add_le_add_left hlines _)⟩
  · cases hx

/-- The constraint of every file is bounded in its depth and in the number of its tags, whatever the
length of the file, and so are the nested calls that it takes to evaluate it, to search it for a tag
and to write it. -/
theorem depth_le_of_constraint (hread : ofContent content = .ok h)
    (hx : h.constraint = .ok (some x)) :
    x.depth ≤ 1101 ∧
      (h.goBuild ≠ none → x.atoms.length ≤ 1000) ∧
      (h.goBuild = none → x.atoms.length ≤ 101000) ∧
      (∀ v, (Expr.Recursion.evaluation v).runWithin 1101 x = some (x.eval v)) ∧
      (∀ v, (Expr.Recursion.partialEvaluation v).runWithin 1101 x = some (x.partialEval v)) ∧
      (∀ t, (Expr.Recursion.search t).runWithin 1101 x = some (x.lookup t)) ∧
      Expr.Recursion.writing.runWithin 1101 x = some x.chars := by
  have hdepth : x.depth ≤ 1101 := by
    cases hgo : h.goBuild with
    | some line => exact (size_of_goBuild hgo hx).2.trans (by decide)
    | none => exact Nat.le_of_succ_le_succ (size_of_plusBuild hread hgo hx).2
  refine ⟨hdepth, fun hgo => ?_, fun hgo => (size_of_plusBuild hread hgo hx).1, ?_, ?_, ?_, ?_⟩
  · obtain ⟨line, hline⟩ := Option.ne_none_iff_exists'.1 hgo
    exact (size_of_goBuild hline hx).1
  · intro v
    rw [Expr.Recursion.runWithin_eq, if_pos hdepth, Expr.Recursion.run_evaluation]
  · intro v
    rw [Expr.Recursion.runWithin_eq, if_pos hdepth, Expr.Recursion.run_partialEvaluation]
  · intro t
    rw [Expr.Recursion.runWithin_eq, if_pos hdepth, Expr.Recursion.run_search]
  · rw [Expr.Recursion.runWithin_eq, if_pos hdepth, Expr.Recursion.run_writing]

theorem depth_le_of_constraint_linux :
    let content := "// +build linux,!cgo darwin\n// +build amd64\n\npackage p\n".toUTF8.toList
    let x : Expr := .and (.or (.and (.tag "linux") (.not (.tag "cgo"))) (.tag "darwin"))
      (.tag "amd64")
    let h : Header := ⟨none, ["// +build linux,!cgo darwin", "// +build amd64"], false⟩
    ofContent content = .ok h ∧ h.constraint = .ok (some x) ∧ h.goBuild = none ∧
      x.depth = 5 ∧ x.depth ≤ 1101 ∧ x.atoms.length ≤ 101000 ∧
      Expr.Recursion.writing.runWithin 1101 x = some x.chars := by
  intro content x h
  have hread : ofContent content = .ok h := by decide +kernel
  have hx : h.constraint = .ok (some x) := by decide +kernel
  obtain ⟨hdepth, -, hatoms, -, -, -, hwriting⟩ := depth_le_of_constraint hread hx
  exact ⟨hread, hx, rfl, rfl, hdepth, hatoms rfl, hwriting⟩

end Source.Header

end GoBuild
