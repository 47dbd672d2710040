import GoBuild.Proofs.Platform.Index
import GoBuild.Proofs.Except
import GoBuild.Proofs.Search.Adjusted
import GoBuild.Search.Matcher

/-!
# What the search tries

Each step tries certain contexts (`Problem.Tries`): a step that finds a context has tried it, and the
constraint holds in it (`Problem.tries_of_run`); the constraint holds in none of the contexts that a
step without a find has tried (`Problem.not_holds_of_run`). What is true of every context tried is
therefore true of every context found, without another look at the steps.
-/

namespace GoBuild.Problem

variable {p : Problem} {s c : Context} {os arch : String}

/-! ### Platforms -/

/-- The platforms to which the search goes from the context `s`, by the part of the pair that the
constraint mentions. What the file name allows is left aside. -/
inductive Lists (p : Problem) (s : Context) (os arch : String) : Prop
  | table (hos : p.mentionsOs = true) (harch : p.mentionsArch = true)
      (hvalid : p.targets.isValid os arch = true) (hmove : ¬ (os = s.os ∧ arch = s.arch))
  | oses (hos : p.mentionsOs = true) (harch : p.mentionsArch = false)
      (hlisted : os ∈ p.targets.preferredOses) (hmove : os ≠ s.os)
      (hpair : arch ∈ counterparts (p.targets.archesFor? os) s.arch p.targets.preferredArches)
  | arches (hos : p.mentionsOs = false) (harch : p.mentionsArch = true)
      (hlisted : arch ∈ p.targets.preferredArches) (hmove : arch ≠ s.arch)
      (hpair : os ∈ counterparts (p.targets.osesFor? arch) s.os p.targets.preferredOses)

/-- The platforms to which the search goes from the context `s`. -/
structure Visits (p : Problem) (s : Context) (os arch : String) : Prop where
  allowsOs : p.mandate.allowsOs os = true
  allowsArch : p.mandate.allowsArch arch = true
  lists : p.Lists s os arch

/-- The contexts tried on one platform. -/
inductive Moves (p : Problem) (s : Context) (os arch : String) : Context → Prop
  | kept : Moves p s os arch (p.retarget s os arch)
  | flipped (hcgo : p.mentionsCgo = true) (hsupported : p.targets.supportsCgo os arch = true) :
      Moves p s os arch { p.retarget s os arch with cgo := !(p.retarget s os arch).cgo }

theorem accept?_eq_some_iff : p.accept? s = some c ↔ s = c ∧ p.holds s = true := by
  simp only [accept?, Option.ite_none_right_eq_some, Option.some.injEq]
  exact and_comm

theorem accept?_eq_none_iff : p.accept? s = none ↔ p.holds s = false := by
  simp [accept?]

theorem moves_of_tryPlatform (h : p.tryPlatform s os arch = some c) :
    p.Moves s os arch c ∧ p.holds c = true := by
  unfold tryPlatform at h
  dsimp only at h
  split at h
  · rename_i hholds
    cases h
    exact ⟨.kept, hholds⟩
  · split at h
    · rename_i hcgo
      rw [Bool.and_eq_true] at hcgo
      obtain ⟨rfl, hholds⟩ := accept?_eq_some_iff.1 h
      exact ⟨.flipped hcgo.1 hcgo.2, hholds⟩
    · cases h

theorem not_holds_of_tryPlatform (h : p.tryPlatform s os arch = none) (hc : p.Moves s os arch c) :
    p.holds c = false := by
  unfold tryPlatform at h
  dsimp only at h
  split at h
  · cases h
  · rename_i hkept
    cases hc with
    | kept => rwa [Bool.not_eq_true] at hkept
    | flipped hcgo hsupported =>
      rw [if_pos (by rw [hcgo, hsupported]; rfl)] at h
      exact accept?_eq_none_iff.1 h

theorem visits_of_walkPlatforms (h : p.walkPlatforms s = some c) :
    ∃ os arch, p.Visits s os arch ∧ p.tryPlatform s os arch = some c := by
  unfold walkPlatforms at h
  split at h
  · rename_i hos harch
    obtain ⟨row, hmem, htry⟩ := List.exists_of_findSome?_eq_some h
    simp only [List.mem_filter, Bool.and_eq_true, Bool.not_eq_true', Bool.and_eq_false_iff,
      decide_eq_false_iff_not] at hmem
    obtain ⟨hrow, hmove, hallowsOs, hallowsArch⟩ := hmem
    refine ⟨row.os, row.arch, ⟨hallowsOs, hallowsArch, .table hos harch ?_ ?_⟩, htry⟩
    · exact Targets.isValid_iff.2 ⟨row, hrow, rfl, rfl⟩
    · exact fun hsame => hmove.elim (· hsame.1) (· hsame.2)
  · rename_i hos harch
    obtain ⟨os, hmem, hwalk⟩ := List.exists_of_findSome?_eq_some h
    obtain ⟨arch, hpair, htry⟩ := List.exists_of_findSome?_eq_some hwalk
    simp only [List.mem_filter, Bool.and_eq_true, decide_eq_true_eq] at hmem hpair
    exact ⟨os, arch, ⟨hmem.2.2, hpair.2, .oses hos harch hmem.1 hmem.2.1 hpair.1⟩, htry⟩
  · rename_i hos harch
    obtain ⟨arch, hmem, hwalk⟩ := List.exists_of_findSome?_eq_some h
    obtain ⟨os, hpair, htry⟩ := List.exists_of_findSome?_eq_some hwalk
    simp only [List.mem_filter, Bool.and_eq_true, decide_eq_true_eq] at hmem hpair
    exact ⟨os, arch, ⟨hpair.2, hmem.2.2, .arches hos harch hmem.1 hmem.2.1 hpair.1⟩, htry⟩
  · cases h

theorem tryPlatform_of_walkPlatforms (h : p.walkPlatforms s = none) (hv : p.Visits s os arch) :
    p.tryPlatform s os arch = none := by
  obtain ⟨hallowsOs, hallowsArch, hlists⟩ := hv
  unfold walkPlatforms at h
  cases hlists with
  | table hos harch hvalid hmove =>
    simp only [hos, harch, walkTable, List.findSome?_eq_none_iff, List.mem_filter] at h
    obtain ⟨row, hrow, rfl, rfl⟩ := Targets.isValid_iff.1 hvalid
    exact h row ⟨hrow, by simpa [hallowsOs, hallowsArch, ← Decidable.imp_iff_not_or] using hmove⟩
  | oses hos harch hlisted hmove hpair =>
    simp only [hos, harch, walkOses, List.findSome?_eq_none_iff, List.mem_filter] at h
    exact h os ⟨hlisted, by simp [hmove, hallowsOs]⟩ arch ⟨hpair, hallowsArch⟩
  | arches hos harch hlisted hmove hpair =>
    simp only [hos, harch, walkArches, List.findSome?_eq_none_iff, List.mem_filter] at h
    exact h arch ⟨hlisted, by simp [hmove, hallowsArch]⟩ os ⟨hpair, hallowsOs⟩

/-! ### Steps -/

/-- The contexts that a step tries. -/
inductive Tries (p : Problem) : Step → Context → Prop
  | direct : Tries p .direct p.base
  | experiments (hnew : p.withExperiments p.base ≠ p.base) :
      Tries p .experiments (p.withExperiments p.base)
  | singleTag {t : String} {d : Polarity} (hmem : (t, d) ∈ p.ordinaryTags)
      (hnew : p.base.setBuildTag t d.isPositive ≠ p.base) :
      Tries p .singleTag (p.base.setBuildTag t d.isPositive)
  | allTags : Tries p .allTags p.adjusted
  | cgo {seed : Seed} {s : Context} (hs : p.seed? seed = some s) (hcgo : p.mentionsCgo = true)
      (hcan : s.cgo = true ∨ p.targets.supportsCgo s.os s.arch = true) :
      Tries p (.cgo seed) { s with cgo := !s.cgo }
  | platform {seed : Seed} {s c : Context} {os arch : String} (hs : p.seed? seed = some s)
      (hv : p.Visits s os arch) (hm : p.Moves s os arch c) : Tries p (.platform seed) c

theorem acceptChanged?_eq_some_iff :
    p.acceptChanged? s = some c ↔ s = c ∧ s ≠ p.base ∧ p.holds s = true := by
  unfold acceptChanged?
  split
  · rename_i h
    simp [h]
  · rename_i h
    rw [accept?_eq_some_iff]
    simp [h]

theorem not_holds_of_acceptChanged? (h : p.acceptChanged? c = none) (hc : c ≠ p.base) :
    p.holds c = false := by
  rw [acceptChanged?, if_neg hc] at h
  exact accept?_eq_none_iff.1 h

/-- A context found by a step is one that it tried, and the constraint holds in it. -/
theorem tries_of_run {step : Step} (h : p.run step = .ok (some c)) :
    p.Tries step c ∧ p.holds c = true := by
  cases step with
  | direct =>
    obtain ⟨rfl, hholds⟩ := accept?_eq_some_iff.1 (Except.ok.inj h)
    exact ⟨.direct, hholds⟩
  | experiments =>
    obtain ⟨rfl, hnew, hholds⟩ := acceptChanged?_eq_some_iff.1 (Except.ok.inj h)
    exact ⟨.experiments hnew, hholds⟩
  | singleTag =>
    obtain ⟨⟨t, d⟩, hmem, htry⟩ := List.exists_of_findSome?_eq_some (Except.ok.inj h)
    obtain ⟨rfl, hnew, hholds⟩ := acceptChanged?_eq_some_iff.1 htry
    exact ⟨.singleTag hmem hnew, hholds⟩
  | allTags =>
    obtain ⟨rfl, hholds⟩ := accept?_eq_some_iff.1 (Except.ok.inj h)
    exact ⟨.allTags, hholds⟩
  | releaseGate =>
    obtain ⟨_, _, hnone⟩ := Except.map_eq_ok_iff.1 h
    cases hnone
  | compilerGate =>
    obtain ⟨_, _, hnone⟩ := Except.map_eq_ok_iff.1 h
    cases hnone
  | cgo seed =>
    obtain ⟨s, hs, htry⟩ := Option.bind_eq_some_iff.1 (Except.ok.inj h)
    simp only [tryCgo, Option.ite_none_right_eq_some, Bool.and_eq_true, Bool.or_eq_true] at htry
    obtain ⟨⟨hcgo, hcan⟩, haccept⟩ := htry
    obtain ⟨rfl, hholds⟩ := accept?_eq_some_iff.1 haccept
    exact ⟨.cgo hs hcgo hcan, hholds⟩
  | platform seed =>
    obtain ⟨s, hs, hwalk⟩ := Option.bind_eq_some_iff.1 (Except.ok.inj h)
    obtain ⟨os, arch, hv, htry⟩ := visits_of_walkPlatforms hwalk
    obtain ⟨hm, hholds⟩ := moves_of_tryPlatform htry
    exact ⟨.platform hs hv hm, hholds⟩

/-- The constraint holds in no context tried by a step that finds none. -/
theorem not_holds_of_run {step : Step} (h : p.run step = .ok none) (hc : p.Tries step c) :
    p.holds c = false := by
  cases hc with
  | direct => exact accept?_eq_none_iff.1 (Except.ok.inj h)
  | experiments hnew => exact not_holds_of_acceptChanged? (Except.ok.inj h) hnew
  | singleTag hmem hnew =>
    exact not_holds_of_acceptChanged?
      (List.findSome?_eq_none_iff.1 (Except.ok.inj h) _ hmem) hnew
  | allTags => exact accept?_eq_none_iff.1 (Except.ok.inj h)
  | cgo hs hcgo hcan =>
    have htry := Except.ok.inj h
    rw [hs, Option.bind_some, tryCgo, if_pos (by simpa [hcgo] using hcan)] at htry
    exact accept?_eq_none_iff.1 htry
  | platform hs hv hm =>
    have hwalk := Except.ok.inj h
    rw [hs, Option.bind_some] at hwalk
    exact not_holds_of_tryPlatform (tryPlatform_of_walkPlatforms hwalk hv) hm

/-- A step that tries a context in which the constraint holds finds one. -/
theorem exists_run_eq_some {step : Step} (hc : p.Tries step c) (hholds : p.holds c = true) :
    ∃ found, p.run step = .ok (some found) := by
  obtain ⟨found?, hrun⟩ : ∃ found?, p.run step = .ok found? := by
    cases hc <;> exact ⟨_, rfl⟩
  cases found? with
  | some found => exact ⟨found, hrun⟩
  | none => exact absurd ((not_holds_of_run hrun hc).symm.trans hholds) Bool.false_ne_true

/-! ### What no step changes -/

/-- A seed is the base context with other tags. -/
theorem seed?_eq_some {seed : Seed} (h : p.seed? seed = some s) :
    ∃ toolTags buildTags, s = { p.base with toolTags := toolTags, buildTags := buildTags } := by
  cases seed with
  | base => exact ⟨_, _, (Option.some.inj h).symm⟩
  | adjusted =>
    rw [seed?, Option.ite_none_left_eq_some] at h
    exact ⟨_, _, (Option.some.inj h.2).symm.trans adjusted_eq⟩

/-- Where the search goes depends on the platform of the seed only. -/
theorem Visits.of_seed {seed : Seed} (hs : p.seed? seed = some s) (hv : p.Visits s os arch) :
    p.Visits p.base os arch := by
  obtain ⟨_, _, rfl⟩ := seed?_eq_some hs
  obtain ⟨hallowsOs, hallowsArch, hlists⟩ := hv
  refine ⟨hallowsOs, hallowsArch, ?_⟩
  cases hlists with
  | table hos harch hvalid hmove => exact .table hos harch hvalid hmove
  | oses hos harch hlisted hmove hpair => exact .oses hos harch hlisted hmove hpair
  | arches hos harch hlisted hmove hpair => exact .arches hos harch hlisted hmove hpair

/-- Only the steps that try other platforms leave that of the base context. -/
theorem Tries.platform_eq {step : Step} (h : p.Tries step c) (hstep : ∀ seed, step ≠ .platform seed) :
    c.os = p.base.os ∧ c.arch = p.base.arch := by
  cases h with
  | direct => exact ⟨rfl, rfl⟩
  | experiments => rw [withExperiments_eq]; exact ⟨rfl, rfl⟩
  | singleTag => exact ⟨rfl, rfl⟩
  | allTags => rw [adjusted_eq]; exact ⟨rfl, rfl⟩
  | cgo hs =>
    obtain ⟨_, _, rfl⟩ := seed?_eq_some hs
    exact ⟨rfl, rfl⟩
  | platform => exact absurd rfl (hstep _)

/-- A context tried is on the platform of the base context, or on one to which the search goes from
there. -/
theorem Tries.platform_cases {step : Step} (h : p.Tries step c) :
    (c.os = p.base.os ∧ c.arch = p.base.arch) ∨ p.Visits p.base c.os c.arch := by
  cases step with
  | platform seed =>
    cases h with
    | platform hs hv hm => cases hm <;> exact Or.inr (hv.of_seed hs)
  | _ => exact Or.inl (h.platform_eq (by simp))

theorem adjusts_of_seed {seed : Seed} (hs : p.seed? seed = some s) : p.Adjusts s := by
  cases seed with
  | base =>
    cases hs
    exact p.adjusts_base
  | adjusted =>
    rw [seed?, Option.ite_none_left_eq_some] at hs
    rw [← Option.some.inj hs.2]
    exact p.adjusts_adjusted

/-- Of the tags, a context tried has other experiments and other tags of the user at most, each as
its first occurrence asks for. -/
theorem Tries.adjusts {step : Step} (h : p.Tries step c) : p.Adjusts c := by
  cases h with
  | direct => exact p.adjusts_base
  | experiments => exact p.adjusts_withExperiments
  | singleTag hmem => exact adjusts_setBuildTag hmem
  | allTags => exact p.adjusts_adjusted
  | cgo hs =>
    obtain ⟨hcompiler, hrelease, htool, hbuild⟩ := adjusts_of_seed hs
    exact ⟨hcompiler, hrelease, htool, hbuild⟩
  | platform hs hv hm =>
    obtain ⟨hcompiler, hrelease, htool, hbuild⟩ := adjusts_of_seed hs
    cases hm <;> exact ⟨hcompiler, hrelease, htool, hbuild⟩

end GoBuild.Problem
