import GoBuild.Proofs.Directive.Printed
import GoBuild.Proofs.Directive.TagWords
import GoBuild.Proofs.Search.Interchange
import GoBuild.Report

/-!
# The constraint in a report

A report shows the constraint of its file in the form of a `//go:build` expression. This can be read
back, with the same value, as long as its tags and parentheses are within the limit
(`Report.parseModern_constraint`). They need not be: several `// +build` lines can make a larger
constraint than one `//go:build` line (`Report.parseModern_constraint_eq_error`).
-/

namespace GoBuild

open Source

namespace Report

/-- The report of a file with a constraint shows it in written form. If its tags and opened
parentheses are at most as many as operands are allowed, the written form is read as an expression
with the same value under every assignment, and otherwise it is refused as too complex. -/
theorem parseModern_constraint {content : List UInt8} {h : Header} {x : Expr}
    (hread : Header.ofContent content = .ok h) (hx : h.constraint = .ok (some x)) (path : String)
    (result : Except MatchError Context) :
    (ofResult path content result).constraint = some x.render ∧
      (x.atoms.length + x.render.toList.count '(' ≤ Directive.maxOperands →
        ∃ y, Directive.parseModern x.render.toList = .ok y ∧ ∀ v, y.eval v = x.eval v) ∧
      (Directive.maxOperands < x.atoms.length + x.render.toList.count '(' →
        Directive.parseModern x.render.toList = .error .tooComplex) := by
  have hcon : Matcher.constraintOf content = .ok (some x) :=
    Matcher.constraintOf_eq_ok_iff.2 ⟨h, hread, hx⟩
  have hparse := Directive.parseModern_chars (x := x) fun t ht => Header.isTagWord_of_constraint hx ht
  rw [Expr.toList_render]
  refine ⟨?_, fun hfits => ?_, fun hlarge => ?_⟩
  · simp only [ofResult, hcon]
    rfl
  · rw [if_pos hfits] at hparse
    exact ⟨x.leftAssoc, hparse, fun v => (x.reassociates_leftAssoc.eval_eq v).symm⟩
  · rwa [if_neg (Nat.not_le.2 hlarge)] at hparse

theorem parseModern_constraint_linux :
    let content := "// +build linux,!cgo darwin\n// +build amd64\n\npackage p\n".toUTF8.toList
    let x : Expr := .and (.or (.and (.tag "linux") (.not (.tag "cgo"))) (.tag "darwin"))
      (.tag "amd64")
    let h : Header := ⟨none, ["// +build linux,!cgo darwin", "// +build amd64"], false⟩
    Header.ofContent content = .ok h ∧ h.constraint = .ok (some x) ∧
      x.atoms.length + x.render.toList.count '(' ≤ Directive.maxOperands ∧
      x.render = "((linux && !cgo) || darwin) && amd64" ∧
      ∃ y, Directive.parseModern x.render.toList = .ok y ∧ ∀ v, y.eval v = x.eval v := by
  intro content x h
  have hread : Header.ofContent content = .ok h := by decide +kernel
  have hx : h.constraint = .ok (some x) := by decide +kernel
  have hfits : x.atoms.length + x.render.toList.count '(' ≤ Directive.maxOperands := by
    decide +kernel
  obtain ⟨-, hparse, -⟩ := parseModern_constraint hread hx "a.go" (.error ⟨"a.go", .noMatch⟩)
  exact ⟨hread, hx, hfits, by decide +kernel, hparse hfits⟩

/-- Ten `// +build` lines of 101 tags each have a constraint whose written form is refused. -/
theorem parseModern_constraint_eq_error :
    let a : Directive.Literal := ⟨false, "a", by decide +kernel⟩
    let line : Directive.Line := ⟨⟨a, []⟩, List.replicate 100 ⟨a, []⟩⟩
    let b : Directive.Block := ⟨line, List.replicate 9 line⟩
    let content := Text.encode b.legacyHeader ++ "package p\n".toUTF8.toList
    ∃ h x, Header.ofContent content = .ok h ∧ h.constraint = .ok (some x) ∧
      Directive.parseModern x.render.toList = .error .tooComplex := by
  intro a line b content
  have hliterals : ∀ l ∈ b.toList, l.literals.length ≤ Directive.maxLiterals := by decide +kernel
  have hlines : b.toList.length ≤ Header.maxPlusBuildLines := by decide +kernel
  have hcode : beginsCode (Text.decodeLossy "package p\n".toUTF8.toList) = true := by
    decide +kernel
  obtain ⟨h, hread, hx⟩ := Matcher.constraintOf_eq_ok_iff.1
    (Directive.Block.constraintOf_legacyHeader hcode hliterals hlines)
  have htags : b.expr.atoms.length = 1010 := by
    rw [b.atoms_expr, List.length_map]
    decide +kernel
  have hlarge : ¬ b.expr.atoms.length + b.expr.chars.count '(' ≤ Directive.maxOperands := by
    have : Directive.maxOperands = 1000 := rfl
    omega
  have hparse := Directive.parseModern_chars (x := b.expr)
    fun t ht => Header.isTagWord_of_constraint hx ht
  rw [if_neg hlarge] at hparse
  exact ⟨h, b.expr, hread, hx, by rwa [Expr.toList_render]⟩

end Report

end GoBuild
