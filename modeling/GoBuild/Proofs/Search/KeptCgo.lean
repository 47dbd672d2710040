import GoBuild.Proofs.Search.Cgo
import GoBuild.Proofs.Search.Placement

/-!
# Searches without leave to change cgo

Without leave to change cgo (`Config.toggleCgo`), the steps that only change it do not run, and going
to another platform is to change it only where the platform has no cgo (`Matcher.KeepsCgo`). But the
steps that try other platforms do not ask for that leave. Where the constraint mentions cgo and the
platform supports it, they also try the opposite setting (`Problem.Flips`), so cgo is kept exactly if
this has not happened, or has set right what the file name did (`Matcher.keepsCgo_iff_of_find`).
-/

namespace GoBuild

namespace Problem

variable {p : Problem} {s c : Context} {os arch : String} {config : Config}

/-- The context is on another platform than the base context, one that supports cgo, and has the
opposite setting of cgo; the constraint mentions cgo. -/
structure Flips (p : Problem) (c : Context) : Prop where
  mentionsCgo : p.mentionsCgo = true
  moved : ¬ (c.os = p.base.os ∧ c.arch = p.base.arch)
  supportsCgo : p.targets.supportsCgo c.os c.arch = true
  cgo : c.cgo = !p.base.cgo

theorem Visits.moved (hv : p.Visits s os arch) : ¬ (os = s.os ∧ arch = s.arch) := by
  rintro ⟨hos, harch⟩
  cases hv.lists with
  | table _ _ _ hmove => exact hmove ⟨hos, harch⟩
  | oses _ _ _ hmove => exact hmove hos
  | arches _ _ _ hmove => exact hmove harch

/-- Without leave to change cgo, a context tried has the setting of the base context, as far as its
platform supports that if it is another one; or it has the opposite setting on another platform. -/
theorem Tries.cgo_cases {step : Step} (hoff : config.toggleCgo = false)
    (hallows : config.allows step = true) (h : p.Tries step c) :
    c.cgo = p.base.cgo ∨ c.cgo = (p.base.cgo && p.targets.supportsCgo c.os c.arch) ∨
      config.searchPlatforms = true ∧ p.Flips c := by
  cases h with
  | direct => exact Or.inl rfl
  | experiments =>
    rw [withExperiments_eq]
    exact Or.inl rfl
  | singleTag => exact Or.inl rfl
  | allTags =>
    rw [adjusted_eq]
    exact Or.inl rfl
  | cgo =>
    rw [Config.allows, hoff] at hallows
    cases hallows
  | platform hs hv hm =>
    rw [Config.allows, Bool.and_eq_true] at hallows
    have hmoved := (hv.of_seed hs).moved
    obtain ⟨_, _, rfl⟩ := seed?_eq_some hs
    cases hm with
    | kept => exact Or.inr (Or.inl rfl)
    | flipped hcgo hsupported =>
      refine Or.inr (Or.inr ⟨hallows.1, hcgo, hmoved, hsupported, ?_⟩)
      simp [retarget, hsupported]

end Problem

namespace Matcher

variable {m : Matcher} {start c : Context} {path : String} {content : List UInt8}

/-- The context has cgo enabled only if the start has, and has it disabled against the start only if
its platform or the one on which the file name places the start does not support cgo. -/
structure KeepsCgo (m : Matcher) (start : Context) (path : String) (c : Context) : Prop where
  of_enabled : c.cgo = true → start.cgo = true
  of_disabled : start.cgo = true → c.cgo = false →
    m.targets.supportsCgo c.os c.arch = false ∨
      m.targets.supportsCgo (m.baseFor start path).os (m.baseFor start path).arch = false

/-- The search has changed cgo on the way to another platform. -/
def FlipsCgo (m : Matcher) (start : Context) (path : String) (content : List UInt8) (c : Context) :
    Prop :=
  ∃ x, constraintOf content = .ok (some x) ∧ m.config.searchPlatforms = true ∧
    (m.problem start path x).Flips c

/-- The file name disables cgo only by placing the start on another platform, without cgo. -/
theorem baseFor_cgo : (m.baseFor start path).cgo = (start.cgo &&
    (((m.baseFor start path).os = (m.filled start).os &&
        (m.baseFor start path).arch = (m.filled start).arch) ||
      m.targets.supportsCgo (m.baseFor start path).os (m.baseFor start path).arch)) := by
  rw [baseFor, Source.Mandate.place_cgo, filled_cgo]

theorem enabled_of_baseFor (h : (m.baseFor start path).cgo = true) : start.cgo = true := by
  rw [baseFor_cgo, Bool.and_eq_true] at h
  exact h.1

theorem supportsCgo_baseFor (hstart : start.cgo = true) (h : (m.baseFor start path).cgo = false) :
    m.targets.supportsCgo (m.baseFor start path).os (m.baseFor start path).arch = false := by
  rw [baseFor_cgo, hstart, Bool.true_and, Bool.or_eq_false_iff] at h
  exact h.2

theorem keepsCgo_of_eq_baseFor (h : c.cgo = (m.baseFor start path).cgo) :
    m.KeepsCgo start path c := by
  refine ⟨fun hc => enabled_of_baseFor (h ▸ hc), fun hstart hc => Or.inr ?_⟩
  exact supportsCgo_baseFor hstart (h ▸ hc)

/-- Going to a platform with the setting of cgo that it supports keeps cgo. -/
theorem keepsCgo_of_eq_and (h : c.cgo =
    ((m.baseFor start path).cgo && m.targets.supportsCgo c.os c.arch)) :
    m.KeepsCgo start path c := by
  constructor
  · intro hc
    rw [h, Bool.and_eq_true] at hc
    exact enabled_of_baseFor hc.1
  · intro hstart hc
    rw [h, Bool.and_eq_false_iff] at hc
    rcases hc with hbase | hplatform
    · exact Or.inr (supportsCgo_baseFor hstart hbase)
    · exact Or.inl hplatform

theorem keepsCgo_or_flipsCgo_of_find (hoff : m.config.toggleCgo = false)
    (h : m.find start path content = .ok c) :
    m.KeepsCgo start path c ∨ m.FlipsCgo start path content c := by
  rcases cases_of_find h with ⟨-, rfl⟩ | ⟨x, step, hcon, hallows, htries, -⟩
  · exact Or.inl (keepsCgo_of_eq_baseFor rfl)
  · rcases htries.cgo_cases hoff hallows with hkept | hkept | ⟨hplatforms, hflips⟩
    · exact Or.inl (keepsCgo_of_eq_baseFor hkept)
    · exact Or.inl (keepsCgo_of_eq_and hkept)
    · exact Or.inr ⟨x, hcon, hplatforms, hflips⟩

/-- If the search has changed cgo, it is kept only if it was changed back: the file name had moved the
start, with cgo enabled, to a platform without it. -/
theorem FlipsCgo.keepsCgo_iff (h : m.FlipsCgo start path content c) :
    m.KeepsCgo start path c ↔ start.cgo = true ∧
      m.targets.supportsCgo (m.baseFor start path).os (m.baseFor start path).arch = false := by
  obtain ⟨x, -, -, hflips⟩ := h
  have hcgo : c.cgo = !(m.baseFor start path).cgo := hflips.cgo
  have hplatform : m.targets.supportsCgo c.os c.arch = true := hflips.supportsCgo
  constructor
  · intro hkeeps
    -- The context found supports cgo, so only the base platform can excuse a difference.
    cases hbase : (m.baseFor start path).cgo with
    | true =>
      have hstart : start.cgo = true := enabled_of_baseFor hbase
      rw [hbase] at hcgo
      refine ⟨hstart, (hkeeps.of_disabled hstart hcgo).resolve_left ?_⟩
      rw [hplatform]
      exact Bool.noConfusion
    | false =>
      rw [hbase] at hcgo
      have hstart : start.cgo = true := hkeeps.of_enabled hcgo
      exact ⟨hstart, supportsCgo_baseFor hstart hbase⟩
  · rintro ⟨hstart, hbase⟩
    exact ⟨fun _ => hstart, fun _ _ => Or.inr hbase⟩

/-- A search without leave to change cgo keeps it in the context found exactly if it did not change it
on the way to another platform, or changed it back after the file name had disabled it. -/
theorem keepsCgo_iff_of_find (hoff : m.config.toggleCgo = false)
    (h : m.find start path content = .ok c) :
    m.KeepsCgo start path c ↔ (m.FlipsCgo start path content c → start.cgo = true ∧
      m.targets.supportsCgo (m.baseFor start path).os (m.baseFor start path).arch = false) := by
  constructor
  · exact fun hkeeps hflips => hflips.keepsCgo_iff.1 hkeeps
  · intro hback
    rcases keepsCgo_or_flipsCgo_of_find hoff h with hkeeps | hflips
    · exact hkeeps
    · exact hflips.keepsCgo_iff.2 (hback hflips)

/-- The platform found has no cgo, so it is disabled; the other setting is not tried. -/
theorem keepsCgo_iff_of_find_js :
    let m : Matcher := ⟨.builtin, { toggleCgo := false }⟩
    let start : Context := { os := "linux", arch := "amd64", cgo := true }
    let content := "//go:build js && !cgo\n\npackage a\n".toUTF8.toList
    let c : Context := { os := "js", arch := "wasm", compiler := "gc" }
    m.config.toggleCgo = false ∧ m.find start "a.go" content = .ok c ∧
      m.KeepsCgo start "a.go" c := by
  intro m start content c
  have hfind : m.find start "a.go" content = .ok c := by decide +kernel
  have hunsupported : ¬ m.targets.supportsCgo c.os c.arch = true := by decide +kernel
  refine ⟨rfl, hfind, (keepsCgo_iff_of_find rfl hfind).2 ?_⟩
  rintro ⟨x, -, -, hflips⟩
  exact absurd hflips.supportsCgo hunsupported

/-- Without leave to change cgo, the search enables it on the way to `windows`, and disables it there. -/
theorem not_keepsCgo_of_find_windows :
    let m : Matcher := ⟨.builtin, { toggleCgo := false }⟩
    let start (on : Bool) : Context := { os := "linux", arch := "amd64", cgo := on }
    let c (on : Bool) : Context := { os := "windows", arch := "amd64", compiler := "gc", cgo := on }
    let enabling := "//go:build windows && cgo\n\npackage a\n".toUTF8.toList
    let disabling := "//go:build windows && !cgo\n\npackage a\n".toUTF8.toList
    (m.find (start false) "a.go" enabling = .ok (c true) ∧
      ¬ m.KeepsCgo (start false) "a.go" (c true)) ∧
    m.find (start true) "a.go" disabling = .ok (c false) ∧
      ¬ m.KeepsCgo (start true) "a.go" (c false) := by
  intro m start c enabling disabling
  refine ⟨⟨by decide +kernel, fun hkeeps => ?_⟩, by decide +kernel, fun hkeeps => ?_⟩
  · exact absurd (hkeeps.of_enabled rfl) (by decide)
  · exact absurd (hkeeps.of_disabled rfl rfl) (by decide +kernel)

end Matcher

end GoBuild
