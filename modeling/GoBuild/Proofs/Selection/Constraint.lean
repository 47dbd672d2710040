import GoBuild.Proofs.Expr.Fold
import GoBuild.Proofs.Selection.Record
import GoBuild.Search.Matcher

/-!
# Selection and the constraint

A context selects a file with a readable constraint exactly if its name admits the context and the
constraint holds (`Context.selects_of_constraintOf`).
-/

namespace GoBuild

open Source

theorem Matcher.constraintOf_eq_ok_iff {content : List UInt8} {x? : Option Expr} :
    constraintOf content = .ok x? ↔ ∃ h, Header.ofContent content = .ok h ∧ h.constraint = .ok x? :=
  Except.bind_eq_ok_iff

namespace Context

variable {c : Context}

/-- If the directives of a header can be read, the check evaluates their expression, or is passed if
there is none, and consults the tags of the expression. -/
theorem checkHeader_of_constraint {h : Header} {x? : Option Expr} (hx : h.constraint = .ok x?) :
    c.checkHeader h =
      .ok ⟨⟨x?.elim true c.holds, .ofList (x?.elim [] Expr.atoms)⟩, h.binaryOnly⟩ := by
  unfold Header.constraint at hx
  rw [checkHeader_eq]
  cases hg : h.goBuild with
  | some line =>
    rw [hg] at hx
    obtain ⟨x, hparse, rfl⟩ := Except.map_eq_ok_iff.1 hx
    simp only [hparse]
    rfl
  | none =>
    simp only [hg] at hx
    split at hx
    · obtain ⟨xs, hread, rfl⟩ := Except.map_eq_ok_iff.1 hx
      have hvalue : (Expr.conj? xs).elim true c.holds = xs.all c.holds :=
        Expr.eval_conj? c.satisfies xs
      simp only [Header.readable, Except.filterMap_toOption_of_mapM hread, Expr.atoms_conj?, hvalue]
    · cases hx

/-- A context selects a file with a readable constraint exactly if its name admits the context and
the constraint, if there is one, holds. -/
theorem selects_of_constraintOf {path : String} {content : List UInt8} {x? : Option Expr}
    (hx : Matcher.constraintOf content = .ok x?) :
    c.selects path content = .ok (c.admitsName path && x?.elim true c.holds) := by
  obtain ⟨h, hread, hcon⟩ := Matcher.constraintOf_eq_ok_iff.1 hx
  have hcheck : c.headerCheck content =
      .ok ⟨⟨x?.elim true c.holds, .ofList (x?.elim [] Expr.atoms)⟩, h.binaryOnly⟩ := by
    rw [headerCheck, hread]
    exact checkHeader_of_constraint hcon
  unfold selects
  split
  · rename_i hname
    rw [hcheck, hname, Bool.true_and]
    rfl
  · rename_i hname
    rw [Bool.not_eq_true] at hname
    rw [hname, Bool.false_and]
    rfl

/-- A file whose constraint does not hold is not selected. -/
theorem selects_ne_true_of_not_holds {path : String} {content : List UInt8} {x : Expr}
    (hx : Matcher.constraintOf content = .ok (some x)) (h : c.holds x = false) :
    c.selects path content ≠ .ok true := by
  rw [selects_of_constraintOf hx]
  simp [h]

end Context

end GoBuild
