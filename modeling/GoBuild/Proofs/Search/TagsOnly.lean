import GoBuild.Proofs.Search.AdjustedValues
import GoBuild.Proofs.Search.Permanence

/-!
# Constraints that ask for tags only

A constraint that asks for experiments and tags of the user only, and for each of them in one direction
only, holds in the adjusted context (`Problem.holds_adjusted`). The adjusted context is tried before
the gates, so a search for a file with such a constraint always finds a context
(`Matcher.exists_find_eq_ok`).
-/

namespace GoBuild

/-- The tag is one of the user: it names no compiler, platform or release, has no rule of its own, and
is not set by the toolchain or its release. -/
structure Context.IsUserTag (c : Context) (t : String) : Prop where
  not_compiler : isCompiler t = false
  not_os : isKnownOs t = false
  not_arch : isKnownArch t = false
  not_release : isReleaseTag t = false
  ne_cgoTag : t ≠ cgoTag
  ne_unixTag : t ≠ unixTag
  not_mem_toolTags : t ∉ c.toolTags
  not_mem_releaseTags : t ∉ c.releaseTags

theorem Context.IsUserTag.of_tags_eq {c c' : Context} {t : String} (h : c.IsUserTag t)
    (htool : c'.toolTags = c.toolTags) (hrelease : c'.releaseTags = c.releaseTags) :
    c'.IsUserTag t :=
  { h with
    not_mem_toolTags := by
      rw [htool]
      exact h.not_mem_toolTags
    not_mem_releaseTags := by
      rw [hrelease]
      exact h.not_mem_releaseTags }

/-- The expression asks for experiments and tags of the user only, not for `boringcrypto`, and for each
of them in one direction only. -/
structure Expr.AsksForTagsOnly (x : Expr) (c : Context) : Prop where
  settable : ∀ t ∈ x.atoms, isExperimentTag t = true ∨ c.IsUserTag t
  not_mem_boringcrypto : boringcryptoTag ∉ x.atoms
  oneDirection : ∀ t ∈ x.atoms, x.OneDirection t

namespace Problem

variable {p : Problem} {t : String} {d : Polarity}

theorem isInternal_eq_false_of_isUserTag (h : p.base.IsUserTag t)
    (hexp : isExperimentTag t = false) : p.isInternal t = false :=
  isInternal_eq_false_iff.2
    ⟨⟨h.not_compiler, h.not_os, h.not_arch, hexp, h.not_release⟩, ⟨h.ne_cgoTag, h.ne_unixTag⟩,
      h.not_mem_toolTags, h.not_mem_releaseTags⟩

/-- A constraint that asks for tags only holds in the adjusted context. -/
theorem holds_adjusted (hbase : p.base.OnKnownPlatform)
    (hcompiler : isCompiler p.base.compiler = true)
    (hbuild : ∀ t ∈ p.base.buildTags, isExperimentTag t = false)
    (hrelease : ∀ t ∈ p.base.releaseTags, isExperimentTag t = false)
    (hx : p.expr.AsksForTagsOnly p.base) : p.holds p.adjusted = true := by
  refine Expr.eval_eq_of_occurrences fun t d hocc => ?_
  have hmem := Expr.mem_atoms_of_mem_occurrences hocc
  have hd : p.expr.lookup t = some d := (hx.oneDirection t hmem).lookup_eq hocc
  rw [beq_true]
  cases hexp : isExperimentTag t with
  | true =>
    have hnot {s : TagSet} (hs : ∀ t ∈ s, isExperimentTag t = false) : t ∉ s := fun ht => by
      rw [hs t ht] at hexp
      cases hexp
    exact satisfies_adjusted_of_isExperimentTag hbase hcompiler (hnot hbuild) (hnot hrelease) hexp hd
  | false =>
    have huser : p.base.IsUserTag t := (hx.settable t hmem).resolve_left (by simp [hexp])
    have hboring : t ≠ boringcryptoTag := by
      rintro rfl
      exact hx.not_mem_boringcrypto hmem
    exact satisfies_adjusted_of_ordinary hbase hcompiler (isInternal_eq_false_of_isUserTag huser hexp)
      hboring hd

/-- If the constraint holds in the adjusted context and tags may be changed, the search finds a
context, whatever the gates say. -/
theorem exists_runAll_of_holds_adjusted {config : Config} (htags : config.toggleTags = true)
    (h : p.holds p.adjusted = true) :
    ∃ c, p.runAll (Step.order.filter config.allows) = .ok c := by
  obtain ⟨c, hrun⟩ := exists_run_eq_some .allTags h
  have hmem : Step.allTags ∈ Step.toggles.filter config.allows :=
    List.mem_filter.2 ⟨by decide, htags⟩
  rw [Step.order_filter]
  exact exists_runAll_append_eq_ok (fun step hstep =>
    Step.not_gate_of_mem_toggles step (List.mem_filter.1 hstep).1) hmem hrun

end Problem

namespace Matcher

variable {m : Matcher} {start : Context} {path : String} {content : List UInt8} {x : Expr}

theorem filled_toolTags : (m.filled start).toolTags = start.toolTags := by
  unfold filled
  split <;> rfl

theorem filled_releaseTags : (m.filled start).releaseTags = start.releaseTags := by
  unfold filled
  split <;> rfl

/-- Filling the gaps of a context and placing it leaves its tags alone. -/
theorem baseFor_tags (m : Matcher) (start : Context) (path : String) :
    (m.baseFor start path).buildTags = start.buildTags ∧
      (m.baseFor start path).toolTags = start.toolTags ∧
      (m.baseFor start path).releaseTags = start.releaseTags := by
  rw [baseFor, Source.Mandate.place_buildTags, Source.Mandate.place_toolTags,
    Source.Mandate.place_releaseTags]
  exact ⟨filled_buildTags, filled_toolTags, filled_releaseTags⟩

/-- A search that may change tags finds a context for every file whose constraint asks for tags only,
each in one direction. -/
theorem exists_find_eq_ok (ht : m.targets.KnownNames) (htags : m.config.toggleTags = true)
    (hstart : (m.filled start).OnKnownPlatform)
    (hcompiler : isCompiler (m.filled start).compiler = true)
    (hbuild : ∀ t ∈ start.buildTags, isExperimentTag t = false)
    (hrelease : ∀ t ∈ start.releaseTags, isExperimentTag t = false)
    (hcon : constraintOf content = .ok (some x)) (hx : x.AsksForTagsOnly start) :
    ∃ c, m.find start path content = .ok c := by
  obtain ⟨hbuildEq, htoolEq, hreleaseEq⟩ := m.baseFor_tags start path
  have hbase : (m.problem start path x).base.OnKnownPlatform := onKnownPlatform_base ht hstart
  have hcompiler' : isCompiler (m.problem start path x).base.compiler = true := by
    rw [(m.sameToolchain_base start path x).compiler]
    exact hcompiler
  have hx' : x.AsksForTagsOnly (m.problem start path x).base :=
    { hx with
      settable := fun t hmem =>
        (hx.settable t hmem).imp_right fun huser => huser.of_tags_eq htoolEq hreleaseEq }
  have hholds : (m.problem start path x).holds (m.problem start path x).adjusted = true :=
    Problem.holds_adjusted hbase hcompiler' (by rwa [problem_base, hbuildEq])
      (by rwa [problem_base, hreleaseEq]) hx'
  obtain ⟨c, hrun⟩ := Problem.exists_runAll_of_holds_adjusted htags hholds
  exact ⟨c, by rw [find_of_constraintOf hcon, hrun]; rfl⟩

/-- Under a negation, one tag is wanted and another one is not. -/
theorem exists_find_eq_ok_windows :
    let m : Matcher := ⟨.builtin, {}⟩
    let start : Context := { os := "linux", arch := "amd64", buildTags := .ofList ["race"] }
    let content :=
      "//go:build !(race || !(purego && goexperiment.arenas))\n\npackage a\n".toUTF8.toList
    ∃ c, m.find start "a_windows.go" content = .ok c := by
  intro m start content
  let x : Expr := .not (.or (.tag "race")
    (.not (.and (.tag "purego") (.tag "goexperiment.arenas"))))
  have hcon : constraintOf content = .ok (some x) := by decide +kernel
  have huser : ∀ t ∈ ["race", "purego"], start.IsUserTag t := by
    intro t hmem
    simp only [List.mem_cons, List.not_mem_nil, or_false] at hmem
    rcases hmem with rfl | rfl <;> constructor <;> decide
  have hx : x.AsksForTagsOnly start := by
    refine ⟨fun t hmem => ?_, by decide, by decide⟩
    have hcases : t ∈ ["race", "purego"] ∨ t = "goexperiment.arenas" := by
      simpa [x, or_assoc] using hmem
    rcases hcases with hmem | rfl
    · exact .inr (huser t hmem)
    · exact .inl (by decide)
  exact exists_find_eq_ok (Targets.knownNames_default _) rfl ⟨by decide, by decide⟩ (by decide)
    (by decide) (by decide) hcon hx

end Matcher

end GoBuild
