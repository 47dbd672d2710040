import GoBuild.Proofs.Expr.Polarity
import GoBuild.Proofs.Search.Run

/-!
# What a search leaves as it is

A context found differs from the base context only in what the configuration lets the search change.
The compiler and the release stay (`Matcher.frame_of_find`). A changed tag is one that the constraint
mentions: of the tags of the user none that means something to the toolchain, of those of the
toolchain only experiments. It is set exactly if its first occurrence in the constraint is positive,
however the later ones count.
-/

namespace GoBuild

namespace Problem

variable {p : Problem} {s c : Context} {config : Config}

/-- A changed tag is one of the kind chosen, is mentioned, and is set exactly if its first occurrence
is positive. -/
theorem ChangesAsAsked.first_occurrence {choose : String → Bool} {s u : TagSet} {t : String}
    (h : p.ChangesAsAsked choose s u) (hchanged : ¬ (t ∈ u ↔ t ∈ s)) :
    t ∈ p.expr.atoms ∧ choose t = true ∧
      (t ∈ u ↔ p.expr.occurrences.find? (·.1 = t) = some (t, .positive)) := by
  obtain ⟨hchoose, d, hd, hset⟩ := h t hchanged
  have hmention : t ∈ p.expr.atoms := Expr.isSome_lookup.1 (by rw [hd]; rfl)
  refine ⟨hmention, hchoose, ?_⟩
  rw [hset, ← Expr.lookup_eq_some_iff, hd]
  cases d <;> simp [Polarity.isPositive]

/-- Without leave to change tags the only seed is the base context. -/
theorem seed?_of_allowsSeed {seed : Seed} (htags : config.toggleTags = false)
    (hallows : config.allowsSeed seed = true) (hs : p.seed? seed = some s) : s = p.base := by
  cases seed with
  | base => exact (Option.some.inj hs).symm
  | adjusted =>
    rw [Config.allowsSeed, htags] at hallows
    cases hallows

/-- Without leave to change tags no step tries a context with other tags. -/
theorem Tries.tags_eq {step : Step} (htags : config.toggleTags = false)
    (hallows : config.allows step = true) (h : p.Tries step c) :
    c.buildTags = p.base.buildTags ∧ c.toolTags = p.base.toolTags := by
  cases h with
  | direct => exact ⟨rfl, rfl⟩
  | experiments | singleTag | allTags =>
    rw [Config.allows, htags] at hallows
    cases hallows
  | cgo hs =>
    rw [Config.allows, Bool.and_eq_true] at hallows
    rw [seed?_of_allowsSeed htags hallows.2 hs]
    exact ⟨rfl, rfl⟩
  | platform hs _ hm =>
    -- Other platforms are tried from the base context only, and going there leaves the tags.
    rw [Config.allows, Bool.and_eq_true] at hallows
    rw [seed?_of_allowsSeed htags hallows.2 hs] at hm
    cases hm <;> exact ⟨rfl, rfl⟩

/-- Without leave to try other platforms every context tried is on that of the base context. -/
theorem Tries.platform_eq_of_allows {step : Step} (hplatforms : config.searchPlatforms = false)
    (hallows : config.allows step = true) (h : p.Tries step c) :
    c.os = p.base.os ∧ c.arch = p.base.arch := by
  refine h.platform_eq ?_
  rintro seed rfl
  rw [Config.allows, hplatforms] at hallows
  cases hallows

end Problem

namespace Matcher

variable {m : Matcher} {start c : Context} {path : String} {content : List UInt8} {x : Expr}

/-- What a search leaves as it is: the compiler and the release; the tags, but for mentioned tags of
the user and experiments, which are then as their first occurrence asks for; all tags, if none may be
changed; and the platform, if no other one may be tried. -/
theorem frame_of_find (hx : constraintOf content = .ok (some x))
    (h : m.find start path content = .ok c) :
    let p := m.problem start path x
    (c.compiler = p.base.compiler ∧ c.releaseTags = p.base.releaseTags) ∧
    (∀ t, ¬ (t ∈ c.buildTags ↔ t ∈ p.base.buildTags) → t ∈ x.atoms ∧ p.isInternal t = false ∧
      (t ∈ c.buildTags ↔ x.occurrences.find? (·.1 = t) = some (t, .positive))) ∧
    (∀ t, ¬ (t ∈ c.toolTags ↔ t ∈ p.base.toolTags) → t ∈ x.atoms ∧ isExperimentTag t = true ∧
      (t ∈ c.toolTags ↔ x.occurrences.find? (·.1 = t) = some (t, .positive))) ∧
    (m.config.toggleTags = false →
      c.buildTags = p.base.buildTags ∧ c.toolTags = p.base.toolTags) ∧
    (m.config.searchPlatforms = false → c.os = p.base.os ∧ c.arch = p.base.arch) := by
  intro p
  obtain ⟨step, hallows, htries, -⟩ := exists_tries_of_find hx h
  have hadjusts : p.Adjusts c := htries.adjusts
  refine ⟨⟨hadjusts.compiler, hadjusts.releaseTags⟩, fun t hchanged => ?_, fun t hchanged => ?_,
    fun htags => htries.tags_eq htags hallows,
    fun hplatforms => htries.platform_eq_of_allows hplatforms hallows⟩
  · obtain ⟨hmention, hchosen, hset⟩ := hadjusts.buildTags.first_occurrence hchanged
    exact ⟨hmention, by simpa using hchosen, hset⟩
  · exact hadjusts.toolTags.first_occurrence hchanged

/-- A search that changes tags of all kinds and goes to another platform. The tag `race`, which counts
in both directions, is cleared since its first occurrence is negative. -/
theorem frame_of_find_windows :
    let m : Matcher := ⟨.builtin, {}⟩
    let start : Context := { os := "linux", arch := "amd64", buildTags := .ofList ["extra", "race"],
                             toolTags := .ofList ["tool"] }
    let content := "//go:build windows && goexperiment.x && (purego && !race || race)\n\npackage a\n"
    let race : Expr := ((Expr.tag "purego").and (.not (.tag "race"))).or (.tag "race")
    let x : Expr := ((Expr.tag "windows").and (.tag "goexperiment.x")).and race
    let c : Context := { os := "windows", arch := "amd64", compiler := "gc",
                         buildTags := .ofList ["extra", "purego"],
                         toolTags := .ofList ["goexperiment.x", "tool"] }
    constraintOf content.toUTF8.toList = .ok (some x) ∧
      m.find start "a.go" content.toUTF8.toList = .ok c ∧
      ("race" ∈ c.buildTags ↔ x.occurrences.find? (·.1 = "race") = some ("race", .positive)) ∧
      ("goexperiment.x" ∈ c.toolTags ↔
        x.occurrences.find? (·.1 = "goexperiment.x") = some ("goexperiment.x", .positive)) := by
  intro m start content race x c
  have hx : constraintOf content.toUTF8.toList = .ok (some x) := by decide +kernel
  have hfind : m.find start "a.go" content.toUTF8.toList = .ok c := by decide +kernel
  obtain ⟨-, hbuild, htool, -, -⟩ := frame_of_find hx hfind
  exact ⟨hx, hfind, (hbuild "race" (by decide)).2.2, (htool "goexperiment.x" (by decide)).2.2⟩

end Matcher

end GoBuild
