import GoBuild.Proofs.Expr.Polarity
import GoBuild.Proofs.Search.Run

/-!
# One tag of the user

If changing one tag of the user makes the constraint true, then the tag is one that the search tries
to change, provided that it counts in one direction only (`Problem.exists_mem_ordinaryTags_of_flip`):
a change against that direction never makes a false expression true. The search therefore finds a
context before it comes to larger changes, and that context differs from the base context in one tag
of the user or in experiments only (`Matcher.exists_find_of_flip`).
-/

namespace GoBuild

namespace Context

variable {c : Context} {t u : String} {on : Bool}

/-- The context with a tag of the user added if it is missing, else removed. -/
def flipBuildTag (c : Context) (t : String) : Context := c.setBuildTag t (!c.buildTags.contains t)

/-- A tag of the user that changes at all is flipped. -/
theorem setBuildTag_eq_flipBuildTag (h : c.setBuildTag t on ≠ c) :
    c.setBuildTag t on = c.flipBuildTag t := by
  have hon : on ≠ c.buildTags.contains t := by
    rintro rfl
    have hsame : c.buildTags.set t (c.buildTags.contains t) = c.buildTags := by
      apply TagSet.ext
      intro u
      rw [TagSet.mem_set]
      split
      · rename_i hu
        rw [hu, TagSet.contains_iff]
      · rfl
    apply h
    rw [setBuildTag, hsame]
  rw [flipBuildTag, ← Bool.eq_not.2 hon]

theorem hasTag_setBuildTag_of_ne (h : u ≠ t) : (c.setBuildTag t on).hasTag u = c.hasTag u := by
  rw [Bool.eq_iff_iff]
  simp [hasTag, setBuildTag, TagSet.mem_set, h]

/-- Setting a tag of the user, other than the experiment with an alias, changes no other tag. -/
theorem satisfies_setBuildTag_of_ne (ht : t ≠ boringcryptoExperiment) (h : u ≠ t) :
    (c.setBuildTag t on).satisfies u = c.satisfies u := by
  unfold satisfies
  rw [hasTag_setBuildTag_of_ne h, hasTag_setBuildTag_of_ne ht.symm]
  rfl

theorem satisfies_of_mem_buildTags (h : t ∈ c.buildTags) : c.satisfies t = true := by
  have hhas : c.hasTag t = true := by simp [hasTag, h]
  rw [satisfies, hhas, Bool.or_true]

/-- Flipping a tag that has the value its direction asks for does not help. -/
theorem favours_flipBuildTag {d : Polarity} (h : d.isPositive = c.buildTags.contains t) :
    d.Favours ((c.flipBuildTag t).satisfies t) (c.satisfies t) := by
  cases d with
  | positive =>
    intro _
    exact satisfies_of_mem_buildTags (TagSet.contains_iff.1 h.symm)
  | negative =>
    intro _
    apply satisfies_of_mem_buildTags
    show t ∈ c.buildTags.set t (!c.buildTags.contains t)
    rw [TagSet.mem_set, if_pos rfl, ← h]
    rfl

end Context

/-- The steps that change no more than one tag of the user. -/
def Step.smallToggles : List Step := [.direct, .experiments, .singleTag]

theorem Step.order_filter_of_toggleTags {config : Config} (htags : config.toggleTags = true) :
    order.filter config.allows = smallToggles ++ (order.drop 3).filter config.allows := by
  have hsmall : smallToggles.filter config.allows = smallToggles := by
    rw [List.filter_eq_self]
    simp [smallToggles, Config.allows, htags]
  have horder : order = smallToggles ++ order.drop 3 := rfl
  rw [← hsmall, ← List.filter_append, ← horder]

namespace Problem

variable {p : Problem} {t : String} {config : Config}

/-- If flipping a tag of the user makes the constraint true, and the tag counts in one direction only,
then this direction asks for the flip. -/
theorem exists_mem_ordinaryTags_of_flip (ht : p.isInternal t = false)
    (hone : p.expr.OneDirection t) (hfalse : p.holds p.base = false)
    (hflip : p.holds (p.base.flipBuildTag t) = true) :
    ∃ d, (t, d) ∈ p.ordinaryTags ∧ d.isPositive = !p.base.buildTags.contains t := by
  refine Classical.byContradiction fun hnone => ?_
  -- Otherwise going back from the flipped context suits every occurrence.
  have hback : p.holds p.base = true := by
    refine Expr.eval_of_favours (fun u d hmem => ?_) hflip
    by_cases hu : u = t
    · subst hu
      have hordinary : (u, d) ∈ p.ordinaryTags :=
        mem_polarities.2 ⟨by rw [ht]; rfl, hone.lookup_eq hmem⟩
      apply Context.favours_flipBuildTag
      exact Decidable.byContradiction fun hne => hnone ⟨d, hordinary, Bool.eq_not.2 hne⟩
    · have hexp : t ≠ boringcryptoExperiment := by
        rintro rfl
        have hinternal : p.isInternal boringcryptoExperiment = true :=
          isInternal_of_isExperimentTag (by decide)
        rw [hinternal] at ht
        cases ht
      rw [Context.flipBuildTag, Context.satisfies_setBuildTag_of_ne hexp hu]
      exact d.favours_refl _
  rw [hfalse] at hback
  cases hback

/-- The flip is one of the contexts that the search tries with one tag of the user changed. -/
theorem tries_flipBuildTag (ht : p.isInternal t = false) (hone : p.expr.OneDirection t)
    (hfalse : p.holds p.base = false) (hflip : p.holds (p.base.flipBuildTag t) = true) :
    p.Tries .singleTag (p.base.flipBuildTag t) := by
  obtain ⟨d, hmem, hd⟩ := exists_mem_ordinaryTags_of_flip ht hone hfalse hflip
  have hnew : p.base.setBuildTag t d.isPositive ≠ p.base := by
    rw [hd]
    intro hsame
    rw [Context.flipBuildTag, hsame, hfalse] at hflip
    cases hflip
  rw [← Context.setBuildTag_eq_flipBuildTag hnew]
  exact .singleTag hmem hnew

/-- A search that may change tags ends with a step that changes no more than one tag of the user. -/
theorem exists_runAll_of_flip (htags : config.toggleTags = true) (ht : p.isInternal t = false)
    (hone : p.expr.OneDirection t) (hfalse : p.holds p.base = false)
    (hflip : p.holds (p.base.flipBuildTag t) = true) :
    ∃ c, p.runAll (Step.order.filter config.allows) = .ok c ∧
      ∃ step ∈ Step.smallToggles, p.Tries step c ∧ p.holds c = true := by
  obtain ⟨found, hrun⟩ := exists_run_eq_some (tries_flipBuildTag ht hone hfalse hflip) hflip
  have hgates : ∀ step ∈ Step.smallToggles, step ≠ .releaseGate ∧ step ≠ .compilerGate := by decide
  have hmem : Step.singleTag ∈ Step.smallToggles := by decide
  obtain ⟨c, hall⟩ : ∃ c, p.runAll (Step.smallToggles ++ []) = .ok c :=
    exists_runAll_append_eq_ok hgates hmem hrun
  rw [List.append_nil] at hall
  obtain ⟨step, hstep, hfound⟩ := exists_run_of_runAll hall
  refine ⟨c, ?_, step, hstep, tries_of_run hfound⟩
  rw [Step.order_filter_of_toggleTags htags]
  exact runAll_append_of_eq_ok hall

/-- What such a step finds is the base context with other experiments or with one tag of the user
flipped. -/
theorem cases_of_tries_smallToggles {c : Context} {step : Step} (hstep : step ∈ Step.smallToggles)
    (htries : p.Tries step c) :
    c = p.base ∨ (∃ toolTags, c = { p.base with toolTags := toolTags }) ∨
      ∃ u, (u ∈ p.expr.atoms ∧ p.isInternal u = false) ∧ c = p.base.flipBuildTag u := by
  cases htries with
  | direct => exact .inl rfl
  | experiments hnew => exact .inr (.inl ⟨_, withExperiments_eq⟩)
  | @singleTag u d hmem hnew =>
    have hordinary : p.isInternal u = false := by simpa using (mem_polarities.1 hmem).1
    exact .inr (.inr ⟨u, ⟨mem_atoms_of_mem_polarities hmem, hordinary⟩,
      Context.setBuildTag_eq_flipBuildTag hnew⟩)
  | allTags | cgo | platform => simp [Step.smallToggles] at hstep

end Problem

namespace Matcher

variable {m : Matcher} {start : Context} {path : String} {content : List UInt8} {x : Expr}
  {t : String}

/-- **One tag is enough where one tag is enough.** If the constraint does not hold in the base
context, but does after one tag of the user that counts in one direction only is flipped, then a
search that may change tags finds a context that differs from the base context in experiments only or
in exactly one tag of the user, which the constraint mentions. -/
theorem exists_find_of_flip (htags : m.config.toggleTags = true)
    (hcon : constraintOf content = .ok (some x))
    (ht : (m.problem start path x).isInternal t = false) (hone : x.OneDirection t)
    (hfalse : (m.baseFor start path).holds x = false)
    (hflip : ((m.baseFor start path).flipBuildTag t).holds x = true) :
    ∃ c, m.find start path content = .ok c ∧ c ≠ m.baseFor start path ∧
      ((∃ toolTags, c = { m.baseFor start path with toolTags := toolTags }) ∨
        ∃ u, (u ∈ x.atoms ∧ (m.problem start path x).isInternal u = false) ∧
          c = (m.baseFor start path).flipBuildTag u) := by
  obtain ⟨c, hrun, step, hstep, htries, hholds⟩ :=
    Problem.exists_runAll_of_flip (p := m.problem start path x) htags ht hone hfalse hflip
  have hne : c ≠ m.baseFor start path := by
    rintro rfl
    exact Bool.false_ne_true (hfalse.symm.trans hholds)
  refine ⟨c, ?_, hne, (Problem.cases_of_tries_smallToggles hstep htries).resolve_left hne⟩
  rw [find_of_constraintOf hcon, hrun]
  rfl

/-- The tag `race` is set and counts against the file, under two negations; all tags at once would
set `purego` and `netgo` as well. -/
theorem exists_find_of_flip_race :
    let m : Matcher := ⟨.builtin, {}⟩
    let start : Context := { os := "linux", arch := "amd64", buildTags := .ofList ["extra", "race"] }
    let content :=
      "//go:build (linux || purego) && !(race && !(netgo && cgo))\n\npackage a\n".toUTF8.toList
    let x : Expr := .and (.or (.tag "linux") (.tag "purego"))
      (.not (.and (.tag "race") (.not (.and (.tag "netgo") (.tag "cgo")))))
    (constraintOf content = .ok (some x) ∧ (m.problem start "a.go" x).isInternal "race" = false ∧
      x.OneDirection "race" ∧ (m.baseFor start "a.go").holds x = false ∧
      ((m.baseFor start "a.go").flipBuildTag "race").holds x = true) ∧
    ∃ c, m.find start "a.go" content = .ok c ∧ c ≠ m.baseFor start "a.go" ∧
      ((∃ toolTags, c = { m.baseFor start "a.go" with toolTags := toolTags }) ∨
        ∃ u, (u ∈ x.atoms ∧ (m.problem start "a.go" x).isInternal u = false) ∧
          c = (m.baseFor start "a.go").flipBuildTag u) := by
  intro m start content x
  have hcon : constraintOf content = .ok (some x) := by decide +kernel
  have ht : (m.problem start "a.go" x).isInternal "race" = false := by decide +kernel
  have hone : x.OneDirection "race" := by decide
  have hfalse : (m.baseFor start "a.go").holds x = false := by decide +kernel
  have hflip : ((m.baseFor start "a.go").flipBuildTag "race").holds x = true := by decide +kernel
  exact ⟨⟨hcon, ht, hone, hfalse, hflip⟩, exists_find_of_flip rfl hcon ht hone hfalse hflip⟩

end Matcher

end GoBuild
