import GoBuild.Proofs.Expr.Polarity
import GoBuild.Proofs.Search.Placement
import GoBuild.Proofs.Search.Run
import GoBuild.Proofs.Search.Unmentioned
import GoBuild.Proofs.Selection.Constraint

/-!
# The search misses nothing

If the constraint mentions both halves of the platform, and asks for each experiment and each tag of
the user in one direction only, a search without a match has missed no context that it could have
found (`Matcher.not_selects_of_find_eq_noMatch`). For each such context, the search tries one on the
same platform with the tags of the adjusted context (`Problem.exists_tries_best`), and these tags are
the best ones (`Problem.holds_best`).
-/

namespace GoBuild

namespace Problem

variable {p : Problem} {c : Context} {t : String} {d : Polarity}

/-- A context that the search may find: its platform is one of the table that the file name allows,
cgo is enabled only where it is supported, and the tags that the search never changes are those of
the base context. -/
structure Candidate (p : Problem) (c : Context) : Prop extends Retags p c where
  isValid : p.targets.isValid c.os c.arch = true
  allowsOs : p.mandate.allowsOs c.os = true
  allowsArch : p.mandate.allowsArch c.arch = true
  supportsCgo : c.cgo = true → p.targets.supportsCgo c.os c.arch = true

/-- The whole table is walked for the constraint, and the first occurrences of the tags that the
search changes speak for the other ones. -/
structure Tractable (p : Problem) : Prop where
  mentionsOs : p.mentionsOs = true
  mentionsArch : p.mentionsArch = true
  not_mem_boringcrypto : boringcryptoTag ∉ p.expr.atoms
  oneDirection : ∀ t, isExperimentTag t = true ∨ p.isInternal t = false → p.expr.OneDirection t

/-- The adjusted context on the platform of `c` and with its cgo. -/
def best (p : Problem) (c : Context) : Context :=
  { p.adjusted with os := c.os, arch := c.arch, cgo := c.cgo }

/-! ### The tags of the adjusted context are the best ones -/

theorem retags_best (p : Problem) (c : Context) : p.Retags (p.best c) := by
  obtain ⟨hcompiler, hrelease, htool, hbuild⟩ := p.adjusts_adjusted.retags
  exact ⟨hcompiler, hrelease, htool, hbuild⟩

theorem mem_best_toolTags (ht : isExperimentTag t = true) (hd : p.expr.lookup t = some d) :
    t ∈ (p.best c).toolTags ↔ d.isPositive = true := by
  rw [best, adjusted_eq]
  exact mem_setAll_polarities ht hd

theorem mem_best_buildTags (ht : p.isInternal t = false) (hd : p.expr.lookup t = some d) :
    t ∈ (p.best c).buildTags ↔ d.isPositive = true := by
  rw [best, adjusted_eq]
  exact mem_setAll_polarities (by rw [ht]; rfl) hd

theorem mem_best_buildTags_of_isInternal (ht : p.isInternal t = true) :
    t ∈ (p.best c).buildTags ↔ t ∈ p.base.buildTags := by
  rw [best, adjusted_eq]
  exact mem_setAll_polarities_of_not (Or.inl (by rw [ht]; rfl))

/-- A tag that is no tag of the user, no experiment and not `boringcrypto` holds as before. -/
theorem satisfies_best_eq (hc : p.Candidate c) (ht : p.isInternal t = true)
    (hexp : isExperimentTag t = false) (hboring : t ≠ boringcryptoTag) :
    (p.best c).satisfies t = c.satisfies t := by
  have hbest := p.retags_best c
  have hhas : (p.best c).hasTag t = c.hasTag t :=
    (hbest.hasTag_eq ht hexp).trans (hc.hasTag_eq ht hexp).symm
  have hcompiler : (p.best c).compiler = c.compiler := hbest.compiler.trans hc.compiler.symm
  have halias : (p.best c).knowsAliases = c.knowsAliases := by
    rw [Context.knowsAliases, Context.knowsAliases, hbest.releaseTags, hc.releaseTags]
  have hos : (p.best c).os = c.os := rfl
  have harch : (p.best c).arch = c.arch := rfl
  have hcgo : (p.best c).cgo = c.cgo := rfl
  simp only [Context.satisfies, hos, harch, hcgo, hcompiler, halias, hhas, decide_eq_false hboring,
    Bool.and_false, Bool.false_and]

/-- A tag of the user holds in the best context exactly if the constraint asks for it. -/
theorem satisfies_best_of_ordinary (hc : (p.best c).OnKnownPlatform)
    (hcompiler : isCompiler p.base.compiler = true) (ht : p.isInternal t = false)
    (hboring : t ≠ boringcryptoTag) (hd : p.expr.lookup t = some d) :
    (p.best c).satisfies t = d.isPositive := by
  have hbest := p.retags_best c
  obtain ⟨⟨hcomp, hos, harch, hexp, -⟩, ⟨hcgo, hunix⟩, htool, hrelease⟩ :=
    isInternal_eq_false_iff.1 ht
  have hne : t ≠ (p.best c).compiler := by
    rintro rfl
    rw [hbest.compiler, hcompiler] at hcomp
    cases hcomp
  have hreserved : t ∉ reservedNames := by
    simp [mem_reservedNames_iff, hos, harch, hcomp, hcgo, hunix, hboring]
  rw [Context.satisfies_eq_hasTag hc hreserved hne, Bool.eq_iff_iff]
  simp [Context.hasTag, mem_best_buildTags ht hd, hbest.toolTags t hexp, hbest.releaseTags, htool,
    hrelease]

/-- The value of an experiment in the best context suits every occurrence of its tag. -/
theorem favours_of_isExperimentTag (hc : p.Candidate c) (hknown : c.OnKnownPlatform)
    (hcompiler : isCompiler p.base.compiler = true) (hbuild : t ∉ p.base.buildTags)
    (ht : isExperimentTag t = true) (hd : p.expr.lookup t = some d) :
    d.Favours (c.satisfies t) ((p.best c).satisfies t) := by
  have hbest := p.retags_best c
  have hknown' : (p.best c).OnKnownPlatform := ⟨hknown.os, hknown.arch⟩
  have hreserved := not_mem_reservedNames_of_isExperimentTag ht
  have hne : t ≠ p.base.compiler := by
    rintro rfl
    exact hreserved (mem_reservedNames_iff.2 (Or.inr (Or.inr (Or.inl hcompiler))))
  rw [Context.satisfies_eq_hasTag hknown hreserved (hc.compiler ▸ hne),
    Context.satisfies_eq_hasTag hknown' hreserved (hbest.compiler ▸ hne)]
  have hbestBuild : t ∉ (p.best c).buildTags := by
    rw [mem_best_buildTags_of_isInternal (isInternal_of_isExperimentTag ht)]
    exact hbuild
  have hbestTool := mem_best_toolTags (c := c) ht hd
  cases d with
  | positive =>
    intro _
    simp [Context.hasTag, hbestTool.2 rfl]
  | negative =>
    -- The tag is in the release tags, which are the same in both contexts.
    intro hhas
    have htool : t ∉ (p.best c).toolTags := fun h => Bool.false_ne_true (hbestTool.1 h)
    have hrelease : t ∈ c.releaseTags := by
      rw [hc.releaseTags, ← hbest.releaseTags]
      simpa [Context.hasTag, hbestBuild, htool] using hhas
    simp [Context.hasTag, hrelease]

/-- If the constraint holds in a context that the search may find, it holds with the tags of the
adjusted context. -/
theorem holds_best (hx : p.Tractable) (hcompiler : isCompiler p.base.compiler = true)
    (hbuild : ∀ t ∈ p.base.buildTags, isExperimentTag t = false) (hc : p.Candidate c)
    (hknown : c.OnKnownPlatform) (h : p.holds c = true) : p.holds (p.best c) = true := by
  refine Expr.eval_of_favours (fun t d ht => ?_) h
  have hboring : t ≠ boringcryptoTag := by
    rintro rfl
    exact hx.not_mem_boringcrypto (Expr.mem_atoms_of_mem_occurrences ht)
  by_cases hexp : isExperimentTag t = true
  · have hbuild' : t ∉ p.base.buildTags := fun hmem => by
      rw [hbuild t hmem] at hexp
      cases hexp
    have hd := (hx.oneDirection t (Or.inl hexp)).lookup_eq ht
    exact favours_of_isExperimentTag hc hknown hcompiler hbuild' hexp hd
  rw [Bool.not_eq_true] at hexp
  by_cases hint : p.isInternal t = true
  · rw [satisfies_best_eq hc hint hexp hboring]
    exact d.favours_refl _
  · rw [Bool.not_eq_true] at hint
    have hd := (hx.oneDirection t (Or.inr hint)).lookup_eq ht
    rw [satisfies_best_of_ordinary ⟨hknown.os, hknown.arch⟩ hcompiler hint hboring hd]
    exact d.favours_isPositive _

/-! ### The best context is tried -/

theorem exists_seed?_eq_adjusted (p : Problem) : ∃ seed, p.seed? seed = some p.adjusted := by
  by_cases h : p.adjusted = p.base
  · exact ⟨.base, congrArg some h.symm⟩
  · exact ⟨.adjusted, if_neg h⟩

/-- The search tries the best context, up to cgo where that does not matter. -/
theorem exists_tries_best (hx : p.Tractable) (hc : p.Candidate c) :
    ∃ step tried, p.Tries step tried ∧ p.holds tried = p.holds (p.best c) := by
  obtain ⟨seed, hs⟩ := p.exists_seed?_eq_adjusted
  by_cases hsame : c.os = p.adjusted.os ∧ c.arch = p.adjusted.arch
  · -- The walk of the table leaves out the platform of the seed, so the steps before it have to do.
    have hbest : p.best c = { p.adjusted with cgo := c.cgo } := by
      rw [best, hsame.1, hsame.2]
    have hcan : c.cgo ≠ p.adjusted.cgo →
        p.adjusted.cgo = true ∨ p.targets.supportsCgo p.adjusted.os p.adjusted.arch = true := by
      intro hcgo
      cases hadjusted : p.adjusted.cgo with
      | true => exact Or.inl rfl
      | false =>
        rw [hadjusted, ne_eq, Bool.not_eq_false] at hcgo
        rw [← hsame.1, ← hsame.2]
        exact Or.inr (hc.supportsCgo hcgo)
    have htried : ∃ tried, (∃ step, p.Tries step tried) ∧
        p.holds tried = p.holds { p.adjusted with cgo := c.cgo } :=
      exists_of_flip ⟨.allTags, .allTags⟩ fun hmentions hcgo =>
        ⟨.cgo seed, .cgo hs hmentions (hcan hcgo)⟩
    obtain ⟨tried, ⟨step, htries⟩, heq⟩ := htried
    exact ⟨step, tried, htries, by rw [heq, hbest]⟩
  · have hv : p.Visits p.adjusted c.os c.arch :=
      ⟨hc.allowsOs, hc.allowsArch, .table hx.mentionsOs hx.mentionsArch hc.isValid hsame⟩
    obtain ⟨tried, hm, heq⟩ := exists_moves p.adjusted hc.supportsCgo
    exact ⟨.platform seed, tried, .platform hs hv hm, heq⟩

/-- If no step finds a context, the constraint holds in none that the search may find. -/
theorem not_holds_of_candidate (hx : p.Tractable) (hcompiler : isCompiler p.base.compiler = true)
    (hbuild : ∀ t ∈ p.base.buildTags, isExperimentTag t = false) (ht : p.targets.KnownNames)
    (hrun : ∀ step, p.run step = .ok none) (hc : p.Candidate c) : p.holds c = false := by
  obtain ⟨hos, harch⟩ := ht.of_isValid hc.isValid
  obtain ⟨step, tried, htries, heq⟩ := exists_tries_best hx hc
  have hbest : p.holds (p.best c) = false := heq.symm.trans (not_holds_of_run (hrun step) htries)
  rw [← Bool.not_eq_true]
  intro hholds
  have hadjusted := holds_best hx hcompiler hbuild hc ⟨hos, harch⟩ hholds
  exact Bool.false_ne_true (hbest.symm.trans hadjusted)

end Problem

/-! ### Searches without a match -/

theorem Step.mem_order_filter {config : Config} (htags : config.toggleTags = true)
    (hcgo : config.toggleCgo = true) (hplatforms : config.searchPlatforms = true) (step : Step) :
    step ∈ order.filter config.allows := by
  have horder : step ∈ order := by
    cases step with
    | cgo seed => cases seed <;> decide
    | platform seed => cases seed <;> decide
    | _ => decide
  have hallows : config.allows step = true := by
    cases step with
    | cgo seed => cases seed <;> simp [Config.allows, Config.allowsSeed, htags, hcgo]
    | platform seed => cases seed <;> simp [Config.allows, Config.allowsSeed, htags, hplatforms]
    | _ => simp [Config.allows, htags]
  exact List.mem_filter.2 ⟨horder, hallows⟩

namespace Matcher

variable {m : Matcher} {start : Context} {path : String} {content : List UInt8} {x : Expr}

theorem filled_buildTags : (m.filled start).buildTags = start.buildTags := by
  unfold filled
  split <;> rfl

/-- If all changes are allowed and a search for a context in which a tractable constraint holds ends
without a match, then no context that the search may find selects the file. -/
theorem not_selects_of_find_eq_noMatch (ht : m.targets.KnownNames)
    (htags : m.config.toggleTags = true) (hcgo : m.config.toggleCgo = true)
    (hplatforms : m.config.searchPlatforms = true)
    (hcompiler : isCompiler (m.filled start).compiler = true)
    (hbuild : ∀ t ∈ start.buildTags, isExperimentTag t = false)
    (hcon : constraintOf content = .ok (some x)) (hx : (m.problem start path x).Tractable)
    (h : m.find start path content = .error ⟨path, .noMatch⟩) :
    ∀ c, (m.problem start path x).Candidate c → c.selects path content ≠ .ok true := by
  intro c hc
  rw [find_of_constraintOf hcon] at h
  obtain ⟨fault, hrun, hfault⟩ := Except.mapError_eq_error_iff.1 h
  cases hfault
  have hnone : ∀ step, (m.problem start path x).run step = .ok none := fun step =>
    Problem.run_eq_none_of_runAll hrun step (Step.mem_order_filter htags hcgo hplatforms step)
  have hcompiler' : isCompiler (m.problem start path x).base.compiler = true := by
    rw [problem_base, baseFor, Source.Mandate.place_compiler]
    exact hcompiler
  have hbuild' : ∀ t ∈ (m.problem start path x).base.buildTags, isExperimentTag t = false := by
    rw [problem_base, baseFor, Source.Mandate.place_buildTags, filled_buildTags]
    exact hbuild
  have ht' : (m.problem start path x).targets.KnownNames := ht
  have hfalse := Problem.not_holds_of_candidate hx hcompiler' hbuild' ht' hnone hc
  exact Context.selects_ne_true_of_not_holds hcon hfalse

/-- A table without the pair that the constraint asks for. -/
theorem not_selects_of_find_eq_noMatch_linux_arm64 :
    let table : List Platform := [⟨"linux", "amd64", true, true⟩, ⟨"windows", "arm64", true, true⟩]
    let m : Matcher := ⟨⟨table, .detected⟩, {}⟩
    let content := "//go:build linux && arm64 && purego\n\npackage a\n".toUTF8.toList
    let other : Context := { os := "windows", arch := "arm64", compiler := "gc", cgo := true,
                             buildTags := .ofList ["purego"] }
    m.find {} "a.go" content = .error ⟨"a.go", .noMatch⟩ ∧
      other.selects "a.go" content ≠ .ok true := by
  intro table m content other
  let x : Expr := ((Expr.tag "linux").and (.tag "arm64")).and (.tag "purego")
  have hcon : constraintOf content = .ok (some x) := by decide +kernel
  have hfind : m.find {} "a.go" content = .error ⟨"a.go", .noMatch⟩ := by decide +kernel
  have ht : m.targets.KnownNames := by
    unfold Targets.KnownNames
    decide
  have hx : (m.problem {} "a.go" x).Tractable := by
    refine ⟨by decide, by decide, by decide, fun t _ => ?_⟩
    simp [Expr.OneDirection, Expr.occurrences, x]
  have hother : (m.problem {} "a.go" x).Candidate other := by
    refine ⟨⟨by decide, rfl, fun _ _ => Iff.rfl, fun t ht _ => ?_⟩, by decide, by decide, by decide,
      by decide⟩
    have hne : t ≠ "purego" := by
      rintro rfl
      exact absurd ht (by decide)
    simp [other, hne, baseFor, filled_buildTags]
  exact ⟨hfind, not_selects_of_find_eq_noMatch ht rfl rfl rfl (by decide) (by decide) hcon hx hfind
    other hother⟩

end Matcher

end GoBuild
