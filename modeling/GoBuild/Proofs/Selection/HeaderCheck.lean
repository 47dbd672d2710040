import GoBuild.Proofs.Selection.Constraint
import GoBuild.Proofs.Source.Constraint

/-!
# The check of a header and its constraint

Where the constraint of a file can be read, the check of its header evaluates that constraint and
consults its tags. Where it cannot, the check fails in the same way if the header has a `//go:build`
line, and otherwise goes on with the `// +build` lines that can be read
(`Context.headerCheck_eq_constraint`).
-/

namespace GoBuild

open Source

namespace Context

variable {c : Context} {h : Header}

/-- The value and the tags of an expression, or true and no tags if there is none. -/
def judge? (c : Context) (x? : Option Expr) : Verdict := x?.elim ⟨true, .empty⟩ c.judge

theorem judge?_eq (x? : Option Expr) :
    c.judge? x? = ⟨x?.elim true c.holds, .ofList (x?.elim [] Expr.atoms)⟩ := by
  cases x? with
  | none => rfl
  | some x => exact c.judge_eq x

/-- Judging a conjunction is judging its members and putting their tags together. -/
theorem judge?_conj? (xs : List Expr) :
    c.judge? (Expr.conj? xs) = ⟨xs.all c.holds, .ofList (xs.flatMap Expr.atoms)⟩ := by
  have hvalue : (Expr.conj? xs).elim true c.holds = xs.all c.holds :=
    Expr.eval_conj? c.satisfies xs
  rw [judge?_eq, hvalue, Expr.atoms_conj?]

theorem checkHeader_of_goBuild_error {line : String} {e : ConstraintError}
    (hgo : h.goBuild = some line) (he : h.constraint = .error e) :
    c.checkHeader h = .error e := by
  simp only [Header.constraint, hgo, Except.map_eq_error_iff] at he
  simp only [checkHeader_eq, hgo, he]
  rfl

theorem checkHeader_of_goBuild_eq_none (hgo : h.goBuild = none) :
    c.checkHeader h = .ok ⟨c.judge? (Expr.conj? h.readable), h.binaryOnly⟩ := by
  rw [judge?_conj?]
  simp only [checkHeader_eq, hgo]

/-- The check of a header fails where the header cannot be read, and agrees with the constraint where
that can be read. An unreadable constraint makes it fail only if it is that of a `//go:build` line. -/
theorem headerCheck_eq_constraint (c : Context) (content : List UInt8) :
    match Header.ofContent content with
    | .error e => c.headerCheck content = .error e
    | .ok h =>
      match h.constraint, h.goBuild with
      | .ok none, _ => c.headerCheck content = .ok ⟨⟨true, .empty⟩, h.binaryOnly⟩
      | .ok (some x), _ => c.headerCheck content = .ok ⟨⟨c.holds x, x.tags⟩, h.binaryOnly⟩
      | .error e, some _ => c.headerCheck content = .error e
      | .error e, none =>
        e = .tooComplex ∧
          c.headerCheck content = .ok ⟨c.judge? (Expr.conj? h.readable), h.binaryOnly⟩ := by
  cases hread : Header.ofContent content with
  | error e =>
    rw [headerCheck, hread]
    rfl
  | ok h =>
    have hcheck : c.headerCheck content = c.checkHeader h := by
      rw [headerCheck, hread]
      rfl
    simp only [hcheck]
    cases hx : h.constraint with
    | ok x? =>
      have heq := checkHeader_of_constraint (c := c) hx
      cases x? <;> exact heq
    | error e =>
      cases hgo : h.goBuild with
      | some line => exact checkHeader_of_goBuild_error hgo hx
      | none =>
        exact ⟨Header.eq_tooComplex_of_constraint hread hgo hx, checkHeader_of_goBuild_eq_none hgo⟩

end Context

end GoBuild
