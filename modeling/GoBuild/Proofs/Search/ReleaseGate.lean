import GoBuild.Proofs.Expr.Polarity
import GoBuild.Proofs.Search.Permanence

/-!
# The release gate

The gate rules a file out if the release tags alone make its constraint false. If no other tag occurs
twice in the constraint, then this is so exactly when no choice of the other tags makes it true
(`Problem.partialEval_sound_exact`). The tag that the gate names is a release tag of the constraint,
and if each of these occurs in one direction only, it is the smallest of those that the base context
has or lacks against what the constraint asks for (`Matcher.blames_of_find`).
-/

namespace GoBuild

/-- The context has a release tag that an occurrence in the expression asks it not to have, or lacks
one that an occurrence asks for. -/
def Context.Contradicts (c : Context) (x : Expr) (t : String) : Prop :=
  isReleaseTag t = true ∧ ∃ d, (t, d) ∈ x.occurrences ∧ c.hasTag t = !d.isPositive

namespace Problem

variable {p : Problem} {t : String} {fault : MatchFault}

theorem run_releaseGate_eq_error_iff : p.run .releaseGate = .error fault ↔
    p.expr.partialEval p.releaseValue = some false ∧ .impossibleVersion p.blamedRelease = fault :=
  Except.map_eq_error_iff.trans passRelease_eq_error_iff

theorem releaseValue_eq_some_iff {b : Bool} :
    p.releaseValue t = some b ↔ isReleaseTag t = true ∧ p.base.hasTag t = b := by
  simp [releaseValue]

/-! ### When the gate fails -/

/-- **Three-valued evaluation is sound, and exact if no open tag occurs twice.** A determined value is
the value whatever the open tags are; if none is determined and no open tag occurs twice, then both
values are taken. The release gate therefore fails for such a constraint exactly if no choice of the
tags that are no release tags makes the constraint true. -/
theorem partialEval_sound_exact (x : Expr) (settled : String → Option Bool) (p : Problem) :
    (∀ b, x.partialEval settled = some b → ∀ v, Expr.Extends v settled → x.eval v = b) ∧
    (x.ReadsOnce settled → x.partialEval settled = none →
      (∃ v, Expr.Extends v settled ∧ x.eval v = true) ∧
        ∃ v, Expr.Extends v settled ∧ x.eval v = false) ∧
    (p.expr.ReadsOnce p.releaseValue →
      ((∃ tag, p.run .releaseGate = .error (.impossibleVersion tag)) ↔
        ¬ ∃ v, Expr.Extends v p.releaseValue ∧ p.expr.eval v = true)) := by
  refine ⟨fun b h v hv => Expr.eval_of_partialEval hv h, fun honce hnone => ?_, fun honce => ?_⟩
  · have hne : ∀ b, x.partialEval settled ≠ some b := fun b hb =>
      Option.some_ne_none b (hb.symm.trans hnone)
    exact ⟨Expr.exists_extends_eval_eq honce (hne _), Expr.exists_extends_eval_eq honce (hne _)⟩
  · constructor
    · rintro ⟨tag, hrun⟩ ⟨v, hv, htrue⟩
      have hfalse := Expr.eval_of_partialEval hv (run_releaseGate_eq_error_iff.1 hrun).1
      rw [htrue] at hfalse
      cases hfalse
    · intro hnever
      have hfalse : p.expr.partialEval p.releaseValue = some false := by
        refine Classical.byContradiction fun hne => hnever ?_
        exact Expr.exists_extends_eval_eq honce (b := true) hne
      exact ⟨p.blamedRelease, run_releaseGate_eq_error_iff.2 ⟨hfalse, rfl⟩⟩

/-- Without the release 1.5, one constraint is open and another is ruled out; both have the release tag
twice. -/
theorem partialEval_sound_exact_go1_5 :
    let p : Problem :=
      ⟨.builtin, .and (.tag "go1.5") (.or (.tag "linux") (.not (.tag "go1.5"))), {}, {}⟩
    let x : Expr := .and (.or (.tag "go1.5") (.tag "linux"))
      (.not (.and (.tag "purego") (.not (.tag "go1.5"))))
    (x.ReadsOnce p.releaseValue ∧ x.partialEval p.releaseValue = none ∧
      p.expr.ReadsOnce p.releaseValue ∧ p.expr.partialEval p.releaseValue = some false) ∧
    ((∃ v, Expr.Extends v p.releaseValue ∧ x.eval v = true) ∧
      ∃ v, Expr.Extends v p.releaseValue ∧ x.eval v = false) ∧
    (∀ v, Expr.Extends v p.releaseValue → p.expr.eval v = false) ∧
      ∃ tag, p.run .releaseGate = .error (.impossibleVersion tag) := by
  intro p x
  have hx : x.ReadsOnce p.releaseValue := by decide +kernel
  have hopen : x.partialEval p.releaseValue = none := by decide +kernel
  have hp : p.expr.ReadsOnce p.releaseValue := by decide +kernel
  have hfalse : p.expr.partialEval p.releaseValue = some false := by decide +kernel
  obtain ⟨-, hboth, hgate⟩ := partialEval_sound_exact x p.releaseValue p
  have hnever := (partialEval_sound_exact p.expr p.releaseValue p).1 false hfalse
  refine ⟨⟨hx, hopen, hp, hfalse⟩, hboth hx hopen, hnever, (hgate hp).2 ?_⟩
  rintro ⟨v, hv, htrue⟩
  exact Bool.false_ne_true ((hnever v hv).symm.trans htrue)

/-! ### The tag that the gate names -/

/-- If the release rules the file out, the base context contradicts some release tag of the
constraint. -/
theorem exists_contradicts (h : p.expr.partialEval p.releaseValue = some false) :
    ∃ t, p.base.Contradicts p.expr t := by
  obtain ⟨t, d, hmem, hvalue⟩ := Expr.exists_occurrence_of_partialEval h
  obtain ⟨hrelease, hhas⟩ := releaseValue_eq_some_iff.1 hvalue
  exact ⟨t, hrelease, d, hmem, by rw [hhas]; cases d.isPositive <;> rfl⟩

/-- The mentioned tags of a kind are in increasing order. -/
theorem pairwise_polarities (choose : String → Bool) :
    (p.polarities choose).Pairwise fun o q => o.1 < q.1 := by
  refine List.Pairwise.filterMap _ ?_ (p.expr.tags.sorted.filter choose)
  intro t u hlt o ho q hq
  obtain ⟨d, -, rfl⟩ := Option.map_eq_some_iff.1 ho
  obtain ⟨e, -, rfl⟩ := Option.map_eq_some_iff.1 hq
  exact hlt

/-- What is found first in an increasing list is the smallest that can be found. -/
theorem le_of_find?_eq_some {test : String × Polarity → Bool} {o q : String × Polarity}
    {asked : List (String × Polarity)} (hsorted : asked.Pairwise fun o q => o.1 < q.1)
    (h : asked.find? test = some o) (hq : q ∈ asked) (htest : test q = true) : o.1 ≤ q.1 := by
  obtain ⟨-, before, after, rfl, hbefore⟩ := List.find?_eq_some_iff_append.1 h
  rcases List.mem_append.1 hq with hq | hq
  · have hnot := hbefore q hq
    rw [htest] at hnot
    cases hnot
  · rcases List.mem_cons.1 hq with rfl | hq
    · exact String.le_refl _
    · have hlt := (List.pairwise_cons.1 (List.pairwise_append.1 hsorted).2.1).1 q hq
      exact String.not_lt.1 fun hgt => String.lt_irrefl _ (String.lt_trans hlt hgt)

/-- The direction of a release tag asks for another value than the one in the base context. -/
def isContradicted (p : Problem) (o : String × Polarity) : Bool :=
  o.2.isPositive != p.base.hasTag o.1

theorem blamedRelease_eq : p.blamedRelease =
    (((p.polarities isReleaseTag).find? p.isContradicted).or
      (p.polarities isReleaseTag).head?).elim "" (·.1) := rfl

/-- If release tags are mentioned, one of them is named. -/
theorem blamedRelease_mem_atoms (ht : t ∈ p.expr.atoms) (hrelease : isReleaseTag t = true) :
    isReleaseTag p.blamedRelease = true ∧ p.blamedRelease ∈ p.expr.atoms := by
  obtain ⟨d, hd⟩ := Option.isSome_iff_exists.1 (Expr.isSome_lookup.2 ht)
  have hmem : (t, d) ∈ p.polarities isReleaseTag := mem_polarities.2 ⟨hrelease, hd⟩
  have hnamed : ∃ o ∈ p.polarities isReleaseTag, p.blamedRelease = o.1 := by
    rw [blamedRelease_eq]
    cases hfind : (p.polarities isReleaseTag).find? p.isContradicted with
    | some o => exact ⟨o, List.mem_of_find?_eq_some hfind, rfl⟩
    | none =>
      obtain ⟨o, rest, hcons⟩ := List.exists_cons_of_ne_nil (List.ne_nil_of_mem hmem)
      exact ⟨o, by rw [hcons]; exact List.mem_cons_self, by rw [hcons]; rfl⟩
  obtain ⟨o, ho, hname⟩ := hnamed
  rw [hname]
  exact ⟨(mem_polarities.1 ho).1, mem_atoms_of_mem_polarities ho⟩

/-- A release tag that occurs in one direction only is contradicted if that direction is. -/
theorem contradicts_iff (hone : p.expr.OneDirection t) : p.base.Contradicts p.expr t ↔
    ∃ d, (t, d) ∈ p.polarities isReleaseTag ∧ p.isContradicted (t, d) = true := by
  have hvalue : ∀ d : Polarity,
      p.isContradicted (t, d) = true ↔ p.base.hasTag t = !d.isPositive := by
    intro d
    unfold isContradicted
    cases d.isPositive <;> cases p.base.hasTag t <;> decide
  constructor
  · rintro ⟨hrelease, d, hmem, hhas⟩
    exact ⟨d, mem_polarities.2 ⟨hrelease, hone.lookup_eq hmem⟩, (hvalue d).2 hhas⟩
  · rintro ⟨d, hmem, hcontradicted⟩
    obtain ⟨hrelease, hlookup⟩ := mem_polarities.1 hmem
    exact ⟨hrelease, d, Expr.mem_occurrences_of_lookup hlookup, (hvalue d).1 hcontradicted⟩

/-- If each release tag occurs in one direction only and the release rules the file out, the tag named
is the smallest that the base context contradicts. -/
theorem blamedRelease_least (h : p.expr.partialEval p.releaseValue = some false)
    (hone : ∀ t ∈ p.expr.atoms, isReleaseTag t = true → p.expr.OneDirection t) :
    p.base.Contradicts p.expr p.blamedRelease ∧
      ∀ t, p.base.Contradicts p.expr t → p.blamedRelease ≤ t := by
  have hiff : ∀ t, p.base.Contradicts p.expr t →
      ∃ d, (t, d) ∈ p.polarities isReleaseTag ∧ p.isContradicted (t, d) = true := by
    rintro t ⟨hrelease, d, hmem, hhas⟩
    have ht := hone t (Expr.mem_atoms_of_mem_occurrences hmem) hrelease
    exact (contradicts_iff ht).1 ⟨hrelease, d, hmem, hhas⟩
  obtain ⟨t, ht⟩ := exists_contradicts h
  obtain ⟨d, hmem, hcontradicted⟩ := hiff t ht
  have hfound : ((p.polarities isReleaseTag).find? p.isContradicted).isSome :=
    List.find?_isSome.2 ⟨(t, d), hmem, hcontradicted⟩
  obtain ⟨o, ho⟩ := Option.isSome_iff_exists.1 hfound
  have hname : p.blamedRelease = o.1 := by
    rw [blamedRelease_eq, ho]
    rfl
  have hmem := List.mem_of_find?_eq_some ho
  rw [hname]
  constructor
  · have hrelease := (mem_polarities.1 hmem).1
    exact (contradicts_iff (hone o.1 (mem_atoms_of_mem_polarities hmem) hrelease)).2
      ⟨o.2, hmem, List.find?_some ho⟩
  · intro u hu
    obtain ⟨e, hmem', hcontradicted'⟩ := hiff u hu
    exact le_of_find?_eq_some (pairwise_polarities isReleaseTag) ho hmem' hcontradicted'

/-- The compiler gate does not blame the release. -/
theorem passCompiler_ne_impossibleVersion (p : Problem) (tag : String) :
    p.passCompiler ≠ .error (.impossibleVersion tag) := by
  unfold passCompiler
  intro h
  split at h
  · cases h
  · split at h
    · split at h <;> cases h
    · cases h

end Problem

namespace Matcher

variable {m : Matcher} {start : Context} {path : String} {content : List UInt8}

/-- A search that fails because of the release fails at the release gate. -/
theorem partialEval_of_find {e : MatchError} {tag : String}
    (h : m.find start path content = .error e) (he : e.fault = .impossibleVersion tag) :
    ∃ x, constraintOf content = .ok (some x) ∧
      x.partialEval (m.problem start path x).releaseValue = some false ∧
      (m.problem start path x).blamedRelease = tag := by
  obtain ⟨x, hx, hgates, -⟩ := gates_of_find h (by rw [MatchError.isPermanent, he]; rfl)
  rw [he] at hgates
  rcases Problem.gates_eq_error_cases hgates with hrelease | hcompiler
  · obtain ⟨hfalse, hfault⟩ := Problem.passRelease_eq_error_iff.1 hrelease
    exact ⟨x, hx, hfalse, MatchFault.impossibleVersion.inj hfault⟩
  · exact absurd hcompiler (Problem.passCompiler_ne_impossibleVersion _ tag)

/-- **The tag blamed for the release is meaningful.** It is a release tag that the constraint
mentions; if each release tag occurs in the constraint in one direction only, it is the smallest of
those whose presence in the base context is the opposite of what their direction asks for. -/
theorem blames_of_find {e : MatchError} {tag : String} (h : m.find start path content = .error e)
    (he : e.fault = .impossibleVersion tag) :
    ∃ x, constraintOf content = .ok (some x) ∧
      (isReleaseTag tag = true ∧ tag ∈ x.atoms ∧ tag ≠ "") ∧
      ((∀ t ∈ x.atoms, isReleaseTag t = true → x.OneDirection t) →
        (m.baseFor start path).Contradicts x tag ∧
          ∀ t, (m.baseFor start path).Contradicts x t → tag ≤ t) := by
  obtain ⟨x, hx, hfalse, rfl⟩ := partialEval_of_find h he
  obtain ⟨t, hrelease, d, hmem, -⟩ := Problem.exists_contradicts hfalse
  have hnamed := Problem.blamedRelease_mem_atoms (p := m.problem start path x)
    (Expr.mem_atoms_of_mem_occurrences hmem) hrelease
  refine ⟨x, hx, ⟨hnamed.1, hnamed.2, fun hempty => ?_⟩, Problem.blamedRelease_least hfalse⟩
  rw [hempty] at hnamed
  exact absurd hnamed.1 (by decide)

/-- In release 1.5, a file for release 1.30 or for one before 1.5: in the order of texts `go1.30` comes
before `go1.5`. -/
theorem blames_of_find_go1_30 :
    let m : Matcher := ⟨.builtin, {}⟩
    let start : Context := { os := "linux", arch := "amd64", releaseTags := Context.releasesThrough 5 }
    let content :=
      "//go:build (purego || !go1.5) && !go1.5 || !purego && go1.30\n\npackage a\n".toUTF8.toList
    let e : MatchError := ⟨"a.go", .impossibleVersion "go1.30"⟩
    (m.find start "a.go" content = .error e ∧ e.fault = .impossibleVersion "go1.30") ∧
    ∃ x, constraintOf content = .ok (some x) ∧
      (∀ t ∈ x.atoms, isReleaseTag t = true → x.OneDirection t) ∧ ¬ x.OneDirection "purego" ∧
      (m.baseFor start "a.go").Contradicts x "go1.5" ∧
      (m.baseFor start "a.go").Contradicts x "go1.30" ∧
      ∀ t, (m.baseFor start "a.go").Contradicts x t → "go1.30" ≤ t := by
  intro m start content e
  have hfind : m.find start "a.go" content = .error e := by decide +kernel
  obtain ⟨x, hx, -, hleast⟩ := blames_of_find hfind rfl
  have hparsed : constraintOf content = .ok (some (.or
      (.and (.or (.tag "purego") (.not (.tag "go1.5"))) (.not (.tag "go1.5")))
      (.and (.not (.tag "purego")) (.tag "go1.30")))) := by decide +kernel
  obtain rfl := Option.some.inj (Except.ok.inj (hx.symm.trans hparsed))
  have hone := hleast (by decide +kernel)
  exact ⟨⟨hfind, rfl⟩, _, hx, by decide +kernel, by decide +kernel,
    ⟨by decide +kernel, .negative, by decide +kernel, by decide +kernel⟩, hone⟩

end Matcher

end GoBuild
