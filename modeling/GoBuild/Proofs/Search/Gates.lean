import Mathlib.Data.List.Find
import GoBuild.Proofs.Expr.Partial
import GoBuild.Proofs.Search.Run

/-!
# What the gates look at

The gates read little of the base context: its compiler and, of the tags that the constraint mentions,
which releases are in its sets of tags and which names of compilers hold in it. Problems that differ
in other parts of their base contexts only pass the gates alike (`Problem.gates_congr`).
-/

namespace GoBuild.Problem

variable {p : Problem} {b : Context}

/-- The gates cannot tell the context from the base context of the problem. -/
structure SameAtGates (p : Problem) (b : Context) : Prop where
  compiler : b.compiler = p.base.compiler
  hasTag : ∀ t ∈ p.expr.atoms, isReleaseTag t = true → b.hasTag t = p.base.hasTag t
  satisfies : ∀ t ∈ p.expr.atoms, isCompiler t = true → b.satisfies t = p.base.satisfies t

theorem partialEval_releaseValue_congr (h : p.SameAtGates b) :
    p.expr.partialEval ({ p with base := b } : Problem).releaseValue =
      p.expr.partialEval p.releaseValue := by
  refine Expr.partialEval_congr fun t ht => ?_
  unfold releaseValue
  split
  · rename_i hrelease
    rw [h.hasTag t ht hrelease]
  · rfl

theorem partialEval_compilerValue_congr (h : p.SameAtGates b) :
    p.expr.partialEval ({ p with base := b } : Problem).compilerValue =
      p.expr.partialEval p.compilerValue := by
  refine Expr.partialEval_congr fun t ht => ?_
  unfold compilerValue
  split
  · rename_i hcompiler
    rw [h.satisfies t ht hcompiler]
  · rfl

theorem blamedRelease_congr (h : p.SameAtGates b) :
    ({ p with base := b } : Problem).blamedRelease = p.blamedRelease := by
  have hfind : (p.polarities isReleaseTag).find? (fun o => o.2.isPositive != b.hasTag o.1) =
      (p.polarities isReleaseTag).find? fun o => o.2.isPositive != p.base.hasTag o.1 := by
    refine List.find?_congr fun o hmem => ?_
    rw [h.hasTag o.1 (mem_atoms_of_mem_polarities hmem) (mem_polarities.1 hmem).1]
  exact congrArg (fun found => (Option.or found (p.polarities isReleaseTag).head?).elim "" (·.1)) hfind

theorem passRelease_congr (h : p.SameAtGates b) :
    ({ p with base := b } : Problem).passRelease = p.passRelease := by
  unfold passRelease
  rw [partialEval_releaseValue_congr h, blamedRelease_congr h]

theorem passCompiler_congr (h : p.SameAtGates b) :
    ({ p with base := b } : Problem).passCompiler = p.passCompiler := by
  unfold passCompiler
  rw [partialEval_compilerValue_congr h]
  simp only [h.compiler]

/-- The gates fail alike for base contexts that they cannot tell apart. -/
theorem gates_congr (h : p.SameAtGates b) : ({ p with base := b } : Problem).gates = p.gates := by
  unfold gates
  rw [passRelease_congr h, passCompiler_congr h]

end GoBuild.Problem
