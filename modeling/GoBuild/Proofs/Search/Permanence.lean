import GoBuild.Proofs.Search.Gates
import GoBuild.Proofs.Search.Placement
import GoBuild.Proofs.Selection.Constraint

/-!
# Permanent failures

A search fails permanently at a gate, where the constraint is false by the release tags or by the
compiler alone. Then it is false in every context with the same toolchain
(`Problem.not_holds_of_gates`), and the gates of a search from any of these fail in the same way
(`Problem.gates_withBase`). The steps before the gates change nothing that the gates look at.
-/

namespace GoBuild

/-- The contexts have the same compiler, and in their sets of tags the same release tags and the same
names of compilers. -/
structure Context.SameToolchain (c d : Context) : Prop where
  compiler : c.compiler = d.compiler
  hasTag : ∀ t, isReleaseTag t = true ∨ isCompiler t = true → c.hasTag t = d.hasTag t

theorem Context.SameToolchain.trans {c d e : Context} (h : c.SameToolchain d)
    (h' : d.SameToolchain e) : c.SameToolchain e :=
  ⟨h.compiler.trans h'.compiler, fun t ht => (h.hasTag t ht).trans (h'.hasTag t ht)⟩

theorem Context.SameToolchain.symm {c d : Context} (h : c.SameToolchain d) : d.SameToolchain c :=
  ⟨h.compiler.symm, fun t ht => (h.hasTag t ht).symm⟩

theorem isExperimentTag_eq_false {t : String} (h : isReleaseTag t = true ∨ isCompiler t = true) :
    isExperimentTag t = false := by
  rw [← Bool.not_eq_true]
  intro hexp
  rcases h with h | h
  · rw [isReleaseTag_eq_false_of_isExperimentTag hexp] at h
    cases h
  · exact not_mem_reservedNames_of_isExperimentTag hexp
      (mem_reservedNames_iff.2 (Or.inr (Or.inr (Or.inl h))))

namespace Problem

variable {p : Problem} {b c : Context} {fault : MatchFault}

theorem Retags.sameToolchain (h : p.Retags c) : c.SameToolchain p.base := by
  refine ⟨h.compiler, fun t ht => h.hasTag_eq ?_ (isExperimentTag_eq_false ht)⟩
  rcases ht with ht | ht <;> simp [isInternal, ht]

/-! ### A failure at a gate rules out all contexts with the same toolchain -/

/-- What the gate assumes of release tags is true in every context with the same toolchain. -/
theorem extends_releaseValue (hc : c.OnKnownPlatform) (hsame : c.SameToolchain p.base)
    (hcompiler : isReleaseTag p.base.compiler = false) :
    Expr.Extends c.satisfies p.releaseValue := by
  intro t b hvalue
  simp only [releaseValue, Option.ite_none_right_eq_some, Option.some.injEq] at hvalue
  obtain ⟨hrelease, rfl⟩ := hvalue
  have hne : t ≠ c.compiler := by
    rintro rfl
    rw [hsame.compiler, hcompiler] at hrelease
    cases hrelease
  rw [Context.satisfies_eq_hasTag hc (not_mem_reservedNames_of_isReleaseTag hrelease) hne]
  exact hsame.hasTag t (Or.inl hrelease)

/-- What the gate assumes of compilers is true in every context with the same toolchain. -/
theorem extends_compilerValue (hbase : p.base.OnKnownPlatform) (hc : c.OnKnownPlatform)
    (hsame : c.SameToolchain p.base) : Expr.Extends c.satisfies p.compilerValue := by
  intro t b hvalue
  simp only [compilerValue, Option.ite_none_right_eq_some, Option.some.injEq] at hvalue
  obtain ⟨hcompiler, rfl⟩ := hvalue
  rw [Context.satisfies_of_isCompiler hc hcompiler, Context.satisfies_of_isCompiler hbase hcompiler,
    hsame.compiler, hsame.hasTag t (Or.inr hcompiler)]

theorem gates_eq_error_cases (h : p.gates = .error fault) :
    p.passRelease = .error fault ∨ p.passCompiler = .error fault := by
  unfold gates at h
  cases hrelease : p.passRelease with
  | error other =>
    rw [hrelease] at h
    exact Or.inl h
  | ok =>
    rw [hrelease] at h
    exact Or.inr h

theorem not_holds_of_gates (hbase : p.base.OnKnownPlatform)
    (hcompiler : isReleaseTag p.base.compiler = false) (h : p.gates = .error fault)
    (hc : c.OnKnownPlatform) (hsame : c.SameToolchain p.base) : c.holds p.expr = false := by
  rcases gates_eq_error_cases h with h | h
  · exact Expr.eval_of_partialEval (extends_releaseValue hc hsame hcompiler)
      (passRelease_eq_error_iff.1 h).1
  · exact Expr.eval_of_partialEval (extends_compilerValue hbase hc hsame)
      (partialEval_of_passCompiler h).1

/-! ### The gates look at the toolchain only -/

theorem sameAtGates_of_sameToolchain (hbase : p.base.OnKnownPlatform) (hb : b.OnKnownPlatform)
    (hsame : b.SameToolchain p.base) : p.SameAtGates b := by
  refine ⟨hsame.compiler, fun t _ ht => hsame.hasTag t (Or.inl ht), fun t _ ht => ?_⟩
  rw [Context.satisfies_of_isCompiler hb ht, Context.satisfies_of_isCompiler hbase ht,
    hsame.compiler, hsame.hasTag t (Or.inr ht)]

theorem gates_withBase (hbase : p.base.OnKnownPlatform) (hb : b.OnKnownPlatform)
    (hsame : b.SameToolchain p.base) : ({ p with base := b } : Problem).gates = p.gates :=
  gates_congr (sameAtGates_of_sameToolchain hbase hb hsame)

/-! ### The steps before the gates -/

/-- If the gates fail, the steps before them find nothing. -/
theorem run_eq_none_of_gates (hbase : p.base.OnKnownPlatform)
    (hcompiler : isReleaseTag p.base.compiler = false) (h : p.gates = .error fault) :
    ∀ step ∈ Step.toggles, p.run step = .ok none := by
  intro step hstep
  obtain ⟨hrelease, hcompilerGate⟩ := Step.not_gate_of_mem_toggles step hstep
  obtain ⟨found, hrun⟩ := exists_run_eq_ok (p := p) hrelease hcompilerGate
  cases found with
  | none => exact hrun
  | some c =>
    obtain ⟨htries, hholds⟩ := tries_of_run hrun
    obtain ⟨hos, harch⟩ := htries.platform_eq (by rintro seed rfl; simp [Step.toggles] at hstep)
    have hc : c.OnKnownPlatform := ⟨by rw [hos]; exact hbase.os, by rw [harch]; exact hbase.arch⟩
    have hfalse := not_holds_of_gates hbase hcompiler h hc htries.adjusts.retags.sameToolchain
    exact absurd (hfalse.symm.trans hholds) Bool.false_ne_true

end Problem

namespace Matcher

variable {m : Matcher} {start start' : Context} {path : String} {content : List UInt8} {x : Expr}

theorem onKnownPlatform_base (ht : m.targets.KnownNames) (h : (m.filled start).OnKnownPlatform) :
    (m.problem start path x).base.OnKnownPlatform := by
  rw [problem_base, baseFor]
  exact Source.Mandate.onKnownPlatform_place h (fun _ => Source.Mandate.isKnownOs_of_ofPath)
    (fun _ => Source.Mandate.isKnownArch_of_ofPath) ht

theorem sameToolchain_base (m : Matcher) (start : Context) (path : String) (x : Expr) :
    (m.problem start path x).base.SameToolchain (m.filled start) := by
  rw [problem_base, baseFor]
  exact ⟨Source.Mandate.place_compiler, fun t _ => Source.Mandate.place_hasTag t⟩

/-- The problems of two starts differ in their base context only. -/
theorem problem_eq_withBase : m.problem start' path x =
    { m.problem start path x with base := (m.problem start' path x).base } := by
  rw [problem, problem]

/-- A search that fails permanently fails at the gates of the problem. -/
theorem gates_of_find {e : MatchError} (h : m.find start path content = .error e)
    (he : e.isPermanent = true) :
    ∃ x, constraintOf content = .ok (some x) ∧ (m.problem start path x).gates = .error e.fault ∧
      e.path = path := by
  unfold find at h
  cases hcon : constraintOf content with
  | error unread =>
    rw [hcon] at h
    cases h
    cases he
  | ok x? =>
    rw [hcon] at h
    cases x? with
    | none => cases h
    | some x =>
      obtain ⟨fault, hrun, rfl⟩ := Except.mapError_eq_error_iff.1 h
      have hfault : fault ≠ .noMatch := by
        rintro rfl
        cases he
      exact ⟨x, rfl, Problem.gates_of_runAll_order hfault hrun, rfl⟩

/-- A permanent failure is permanent: no context on a known platform with the same toolchain selects
the file, and a search from any such start fails in the same way. -/
theorem find_permanent {e : MatchError} (ht : m.targets.KnownNames)
    (hstart : (m.filled start).OnKnownPlatform)
    (hcompiler : isReleaseTag (m.filled start).compiler = false)
    (h : m.find start path content = .error e) (he : e.isPermanent = true) :
    (∀ c : Context, c.OnKnownPlatform → c.SameToolchain (m.filled start) →
      c.selects path content ≠ .ok true) ∧
    ∀ start' : Context, (m.filled start').OnKnownPlatform →
      (m.filled start').SameToolchain (m.filled start) → m.find start' path content = .error e := by
  obtain ⟨x, hcon, hgates, hpath⟩ := gates_of_find h he
  have hbase : (m.problem start path x).base.OnKnownPlatform := onKnownPlatform_base ht hstart
  have hplaced := m.sameToolchain_base start path x
  constructor
  · intro c hc hsame
    have hrelease : isReleaseTag (m.problem start path x).base.compiler = false := by
      rw [hplaced.compiler]
      exact hcompiler
    exact Context.selects_ne_true_of_not_holds hcon
      (Problem.not_holds_of_gates hbase hrelease hgates hc (hsame.trans hplaced.symm))
  · intro start' hstart' hsame
    have hbase' : (m.problem start' path x).base.OnKnownPlatform := onKnownPlatform_base ht hstart'
    have hplaced' := (m.sameToolchain_base start' path x).trans hsame
    have hgates' : (m.problem start' path x).gates = .error e.fault := by
      rw [← hgates, problem_eq_withBase]
      exact Problem.gates_withBase hbase hbase' (hplaced'.trans hplaced.symm)
    have hrelease : isReleaseTag (m.problem start' path x).base.compiler = false := by
      rw [hplaced'.compiler]
      exact hcompiler
    have htoggles := Problem.run_eq_none_of_gates hbase' hrelease hgates'
    rw [find_of_constraintOf hcon, Problem.runAll_order_of_gates hgates' htoggles, ← hpath]
    rfl

/-- A toolchain before release 1.5, on two platforms. -/
theorem find_permanent_go1_5 :
    let m : Matcher := ⟨.builtin, {}⟩
    let content := "//go:build go1.5 && (windows || purego)\n\npackage a\n".toUTF8.toList
    let e : MatchError := ⟨"a.go", .impossibleVersion "go1.5"⟩
    let start : Context := { os := "linux", arch := "amd64" }
    let other : Context := { os := "windows", arch := "arm64", compiler := "gc", cgo := true }
    (m.find start "a.go" content = .error e ∧ e.isPermanent = true) ∧
      other.selects "a.go" content ≠ .ok true ∧ m.find other "a.go" content = .error e := by
  intro m content e start other
  have hfind : m.find start "a.go" content = .error e := by decide +kernel
  have hstart : (m.filled start).OnKnownPlatform := ⟨by decide, by decide⟩
  have hother : other.OnKnownPlatform := ⟨by decide, by decide⟩
  have hfilled : (m.filled other).OnKnownPlatform := ⟨by decide, by decide⟩
  have hsame : other.SameToolchain (m.filled start) := ⟨by decide, fun _ _ => rfl⟩
  have hsame' : (m.filled other).SameToolchain (m.filled start) := ⟨by decide, fun _ _ => rfl⟩
  have hpermanent := find_permanent (Targets.knownNames_default _) hstart (by decide) hfind rfl
  exact ⟨⟨hfind, rfl⟩, hpermanent.1 other hother hsame, hpermanent.2 other hfilled hsame'⟩

end Matcher

end GoBuild
