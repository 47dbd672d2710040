import GoBuild.Proofs.Search.Table
import GoBuild.Proofs.Search.Unmentioned

/-!
# Constraints that mention one half of the platform

If the constraint mentions operating systems but no architecture, or the other way round, the search
does not walk the table. It goes through the values of the half that is mentioned, and keeps the
other half of the base context wherever the table has that pair. So it finds a context if some row of
the table answers the constraint, and the pair that keeps the other half, if the table has it, is
permitted like that row (`Problem.exists_run_platform`). Without the last condition it may miss the
row: cgo can be supported by the row only (`Problem.run_platform_eq_none_windows_cgo`).
-/

namespace GoBuild.Problem

variable {p : Problem} {os arch : String} {on : Bool}

/-- The file name allows the platform, and cgo is on only if the platform supports it. -/
structure Permits (p : Problem) (os arch : String) (on : Bool) : Prop where
  allowsOs : p.mandate.allowsOs os = true
  allowsArch : p.mandate.allowsArch arch = true
  supportsCgo : on = true → p.targets.supportsCgo os arch = true

/-- A pair of the table, permitted with this setting of cgo, on which the constraint holds with the
compiler and the tags of the base context. -/
structure Answers (p : Problem) (os arch : String) (on : Bool) : Prop extends
    Permits p os arch on where
  isValid : p.targets.isValid os arch = true
  holds : p.holds { p.base with os, arch, cgo := on } = true

/-- The constraint mentions an operating system but no architecture. -/
theorem exists_run_platform_of_os (ht : p.targets.KnownNames) (hos : p.mentionsOs = true)
    (harch : p.mentionsArch = false) (h : p.Answers os arch on) (hmove : os ≠ p.base.os)
    (hkeep : p.targets.isValid os p.base.arch = true → p.Permits os p.base.arch on) :
    ∃ c, p.run (.platform .base) = .ok (some c) := by
  obtain ⟨valid, hrow⟩ := Option.ne_none_iff_exists'.1 (Targets.archesFor?_ne_none h.isValid)
  have hlisted : arch ∈ p.targets.preferredArches :=
    Targets.mem_preferredArches h.isValid (ht.ne_of_isValid h.isValid).2
  obtain ⟨tried, hpair, hmem, hpermits⟩ := exists_counterpart (P := fun a => p.Permits os a on)
    ((Targets.mem_archesFor? hrow).2 h.isValid) hlisted h.toPermits
    fun hcurrent => hkeep ((Targets.mem_archesFor? hrow).1 hcurrent)
  have hvisits : p.Visits p.base os tried := by
    refine ⟨hpermits.allowsOs, hpermits.allowsArch, .oses hos harch ?_ hmove (hrow ▸ hpair)⟩
    exact Targets.mem_preferredOses h.isValid (ht.ne_of_isValid h.isValid).1
  -- The pair that is tried may differ from the row in the architecture, which does not matter.
  obtain ⟨c, hmoves, hc⟩ := exists_moves p.base hpermits.supportsCgo
  have hknown := (ht.of_isValid ((Targets.mem_archesFor? hrow).1 hmem)).2
  have hsame := holds_setArch harch hknown (ht.of_isValid h.isValid).2
    { p.base with os, cgo := on }
  exact exists_run_eq_some (.platform rfl hvisits hmoves) ((hc.trans hsame).trans h.holds)

/-- The constraint mentions an architecture but no operating system. -/
theorem exists_run_platform_of_arch (ht : p.targets.KnownNames) (hos : p.mentionsOs = false)
    (harch : p.mentionsArch = true) (h : p.Answers os arch on) (hmove : arch ≠ p.base.arch)
    (hkeep : p.targets.isValid p.base.os arch = true → p.Permits p.base.os arch on) :
    ∃ c, p.run (.platform .base) = .ok (some c) := by
  obtain ⟨valid, hrow⟩ := Option.ne_none_iff_exists'.1 (Targets.osesFor?_ne_none h.isValid)
  have hlisted : os ∈ p.targets.preferredOses :=
    Targets.mem_preferredOses h.isValid (ht.ne_of_isValid h.isValid).1
  obtain ⟨tried, hpair, hmem, hpermits⟩ := exists_counterpart (P := fun o => p.Permits o arch on)
    ((Targets.mem_osesFor? hrow).2 h.isValid) hlisted h.toPermits
    fun hcurrent => hkeep ((Targets.mem_osesFor? hrow).1 hcurrent)
  have hvisits : p.Visits p.base tried arch := by
    refine ⟨hpermits.allowsOs, hpermits.allowsArch, .arches hos harch ?_ hmove (hrow ▸ hpair)⟩
    exact Targets.mem_preferredArches h.isValid (ht.ne_of_isValid h.isValid).2
  obtain ⟨c, hmoves, hc⟩ := exists_moves p.base hpermits.supportsCgo
  have hknown := (ht.of_isValid ((Targets.mem_osesFor? hrow).1 hmem)).1
  have hsame := holds_setOs hos hknown (ht.of_isValid h.isValid).1
    { p.base with arch, cgo := on }
  exact exists_run_eq_some (.platform rfl hvisits hmoves) ((hc.trans hsame).trans h.holds)

/-- For a constraint that mentions one half of the platform only, the search from the base context
finds a context if some row of the table with another value of that half answers the constraint, and
the pair of that value with the other half of the base context, if the table has it, is permitted
with the same setting of cgo. -/
theorem exists_run_platform (ht : p.targets.KnownNames) (h : p.Answers os arch on) :
    (p.mentionsOs = true → p.mentionsArch = false → os ≠ p.base.os →
      (p.targets.isValid os p.base.arch = true → p.Permits os p.base.arch on) →
      ∃ c, p.run (.platform .base) = .ok (some c)) ∧
    (p.mentionsOs = false → p.mentionsArch = true → arch ≠ p.base.arch →
      (p.targets.isValid p.base.os arch = true → p.Permits p.base.os arch on) →
      ∃ c, p.run (.platform .base) = .ok (some c)) :=
  ⟨fun hos harch => exists_run_platform_of_os ht hos harch h,
    fun hos harch => exists_run_platform_of_arch ht hos harch h⟩

/-- The other half has to change, and cgo with it: `aix` goes with `ppc64` only. For an architecture,
the operating system that the file name demands is kept. -/
theorem exists_run_platform_aix_cgo :
    let p : Problem := ⟨.builtin, (Expr.tag "aix").and (.tag "cgo"), .ofPath "a.go",
      .ofPlatform "linux" "amd64"⟩
    let q : Problem := ⟨.builtin, .not (.tag "amd64"), .ofPath "a_windows.go",
      .ofPlatform "windows" "amd64"⟩
    (p.Answers "aix" "ppc64" true ∧ ∃ c, p.run (.platform .base) = .ok (some c)) ∧
      q.Answers "windows" "arm64" false ∧ ∃ c, q.run (.platform .base) = .ok (some c) := by
  intro p q
  have ht : Targets.builtin.KnownNames := Targets.knownNames_default _
  have hp : p.Answers "aix" "ppc64" true :=
    ⟨⟨by decide, by decide, by decide +kernel⟩, by decide, by decide⟩
  have hq : q.Answers "windows" "arm64" false :=
    ⟨⟨by decide, by decide, by decide⟩, by decide, by decide⟩
  have hnew : ¬ p.targets.isValid "aix" p.base.arch = true := by decide
  exact ⟨⟨hp, (exists_run_platform ht hp).1 (by decide) (by decide) (by decide) (absurd · hnew)⟩,
    hq, (exists_run_platform ht hq).2 (by decide) (by decide) (by decide) fun _ => hq.toPermits⟩

/-- The search misses rows that answer the constraint. On `windows`, cgo needs another architecture
than `arm`, which the table also has there. And from a base context that the file name does not
allow, the pair with the architecture of the base is not allowed either. -/
theorem run_platform_eq_none_windows_cgo :
    let p : Problem := ⟨.builtin, (Expr.tag "windows").and (.tag "cgo"), .ofPath "a.go",
      .ofPlatform "linux" "arm"⟩
    let q : Problem := ⟨.builtin, .tag "windows", .ofPath "a_arm64.go",
      .ofPlatform "linux" "amd64"⟩
    (p.targets.KnownNames ∧ p.mentionsOs = true ∧ p.mentionsArch = false ∧
      "windows" ≠ p.base.os ∧ p.Answers "windows" "amd64" true ∧
      p.run (.platform .base) = .ok none) ∧
    (q.targets.KnownNames ∧ q.mentionsOs = true ∧ q.mentionsArch = false ∧
      "windows" ≠ q.base.os ∧ q.Answers "windows" "arm64" false ∧
      q.run (.platform .base) = .ok none) := by
  intro p q
  have ht : Targets.builtin.KnownNames := Targets.knownNames_default _
  have hp : p.Answers "windows" "amd64" true :=
    ⟨⟨by decide, by decide, by decide +kernel⟩, by decide, by decide⟩
  have hq : q.Answers "windows" "arm64" false :=
    ⟨⟨by decide, by decide, by decide⟩, by decide, by decide⟩
  exact ⟨⟨ht, by decide, by decide, by decide, hp, by decide +kernel⟩,
    ht, by decide, by decide, by decide, hq, by decide +kernel⟩

end GoBuild.Problem
