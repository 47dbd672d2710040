import GoBuild.Proofs.Selection.Record
import GoBuild.Proofs.Source.FileName
import GoBuild.Search.Placement

/-!
# Selection and the file name

A file name is checked in two ways: selection asks whether the names that it demands hold as tags
(`Context.admitsName`), the search whether it allows the platform (`Mandate.allowsOs` and
`Mandate.allowsArch`). A name admits every context on a platform that it allows
(`Context.admitsName_of_allows`). It can admit a context on another platform, but only one that has
the demanded name as a tag or as its compiler (`Context.admitsName_iff_allows_or_carries`). Where
this cannot be, both checks agree (`Context.admitsName_iff`).
-/

namespace GoBuild

open Source

/-! ### What a file name allows -/

namespace Source.Mandate

variable {m : Mandate}

/-- A file name allows the operating system that it demands and those that count as it. -/
theorem allowsOs_iff {os : String} : m.allowsOs os = true ↔
    ∀ demanded, m.os = some demanded → os = demanded ∨ impliedOs? os = some demanded := by
  unfold allowsOs
  cases m.os with
  | none => simp
  | some demanded => simp [mem_acceptedOses_iff]

theorem allowsArch_iff {arch : String} :
    m.allowsArch arch = true ↔ ∀ demanded, m.arch = some demanded → arch = demanded := by
  unfold allowsArch
  cases m.arch with
  | none => simp
  | some demanded => simp [eq_comm]

end Source.Mandate

namespace Context

variable {c : Context} {t path : String}

/-! ### Names of platforms as tags -/

/-- The name is that of the compiler or in one of the sets of tags. -/
def Carries (c : Context) (t : String) : Prop := t = c.compiler ∨ c.hasTag t = true

/-- Neither the compiler nor a tag in one of the sets of tags has the name of a platform. -/
structure NoPlatformTags (c : Context) : Prop where
  compiler : c.compiler ∉ platformNames
  hasTag : ∀ t ∈ platformNames, c.hasTag t = false

theorem NoPlatformTags.not_carries (hn : c.NoPlatformTags) (ht : t ∈ platformNames) :
    ¬ c.Carries t := by
  rintro (h | h)
  · exact hn.compiler (h ▸ ht)
  · rw [hn.hasTag t ht] at h
    cases h

/-- A context satisfies the names of its own platform and that of the operating system as which its
own counts, and no other names of platforms than those it carries. -/
theorem satisfies_platform_iff (ht : t ∈ platformNames) :
    c.satisfies t = true ↔
      (t = c.os ∨ t = c.arch ∨ impliedOs? c.os = some t) ∨ c.Carries t := by
  obtain ⟨hcgo, hunix, hboring⟩ := ne_of_mem_platformNames ht
  refine satisfies_iff.trans ⟨?_, ?_⟩
  · rintro (⟨-, h⟩ | (h | h | h) | h | ⟨-, h, -⟩ | ⟨-, h, -⟩ | h)
    · exact absurd h hcgo
    · exact .inl (.inl h)
    · exact .inl (.inr (.inl h))
    · exact .inr (.inl h)
    · exact .inl (.inr (.inr h))
    · exact absurd h hunix
    · exact absurd h hboring
    · exact .inr (.inr h)
  · rintro ((h | h | h) | h | h) <;> simp [h]

theorem satisfies_os_iff (hc : c.OnKnownPlatform) (ht : isKnownOs t = true) :
    c.satisfies t = true ↔ (c.os = t ∨ impliedOs? c.os = some t) ∨ c.Carries t := by
  have harch : t ≠ c.arch := by
    rintro rfl
    exact not_isKnownArch_of_isKnownOs ht hc.arch
  rw [satisfies_platform_iff (mem_platformNames_iff.2 (Or.inl ht)), @eq_comm _ c.os]
  simp [harch]

theorem satisfies_arch_iff (hc : c.OnKnownPlatform) (ht : isKnownArch t = true) :
    c.satisfies t = true ↔ c.arch = t ∨ c.Carries t := by
  have hos : t ≠ c.os := by
    rintro rfl
    exact not_isKnownArch_of_isKnownOs hc.os ht
  have himplied : impliedOs? c.os ≠ some t := fun h =>
    not_isKnownArch_of_isKnownOs (isKnownOs_of_impliedOs? h) ht
  rw [satisfies_platform_iff (mem_platformNames_iff.2 (Or.inr ht)), @eq_comm _ c.arch]
  simp [hos, himplied]

/-! ### Names that admit a context -/

theorem admitsName_iff_satisfies : c.admitsName path = true ↔
    (∀ demanded, (Mandate.ofPath path).os = some demanded → c.satisfies demanded = true) ∧
      ∀ demanded, (Mandate.ofPath path).arch = some demanded → c.satisfies demanded = true := by
  rw [admitsName, nameCheck_eq]
  simp only [Mandate.tags, List.all_append, Bool.and_eq_true, List.all_eq_true, Option.mem_toList]

/-- A file name admits every context on a platform that it allows. -/
theorem admitsName_of_allows (hos : (Mandate.ofPath path).allowsOs c.os = true)
    (harch : (Mandate.ofPath path).allowsArch c.arch = true) : c.admitsName path = true := by
  refine admitsName_iff_satisfies.2 ⟨fun demanded hm => ?_, fun demanded hm => ?_⟩
  · rcases Mandate.allowsOs_iff.1 hos demanded hm with hown | himplied
    · simp [satisfies, hown]
    · simp [satisfies, himplied]
  · simp [satisfies, Mandate.allowsArch_iff.1 harch demanded hm]

/-- On a platform with known names, a file name admits a context exactly if the context is on a
platform that it allows, or carries what it is lacking there. -/
theorem admitsName_iff_allows_or_carries (hc : c.OnKnownPlatform) : c.admitsName path = true ↔
    ((Mandate.ofPath path).allowsOs c.os = true ∨
        ∃ demanded, (Mandate.ofPath path).os = some demanded ∧ c.Carries demanded) ∧
      ((Mandate.ofPath path).allowsArch c.arch = true ∨
        ∃ demanded, (Mandate.ofPath path).arch = some demanded ∧ c.Carries demanded) := by
  rw [admitsName_iff_satisfies, Mandate.allowsOs_iff, Mandate.allowsArch_iff]
  refine and_congr ?_ ?_
  · cases hm : (Mandate.ofPath path).os with
    | none => simp
    | some demanded => simp [satisfies_os_iff hc (Mandate.isKnownOs_of_ofPath hm)]
  · cases hm : (Mandate.ofPath path).arch with
    | none => simp
    | some demanded => simp [satisfies_arch_iff hc (Mandate.isKnownArch_of_ofPath hm)]

/-- A file name admits a context without platforms among its tags exactly if it allows its
platform. -/
theorem admitsName_iff (hc : c.OnKnownPlatform) (hn : c.NoPlatformTags) :
    c.admitsName path = true ↔ (Mandate.ofPath path).allowsOs c.os = true ∧
      (Mandate.ofPath path).allowsArch c.arch = true := by
  have hos : ¬ ∃ demanded, (Mandate.ofPath path).os = some demanded ∧ c.Carries demanded := by
    rintro ⟨demanded, hm, hcarries⟩
    have hname : demanded ∈ platformNames :=
      mem_platformNames_iff.2 (.inl (Mandate.isKnownOs_of_ofPath hm))
    exact hn.not_carries hname hcarries
  have harch : ¬ ∃ demanded, (Mandate.ofPath path).arch = some demanded ∧ c.Carries demanded := by
    rintro ⟨demanded, hm, hcarries⟩
    have hname : demanded ∈ platformNames :=
      mem_platformNames_iff.2 (.inr (Mandate.isKnownArch_of_ofPath hm))
    exact hn.not_carries hname hcarries
  rw [admitsName_iff_allows_or_carries hc, or_iff_left hos, or_iff_left harch]

/-- **The two checks of a file name agree.** A context that the search allows is admitted. A context
that is admitted is allowed if its platform has known names and it carries no names of platforms. -/
theorem admitsName_agrees :
    ((Mandate.ofPath path).allowsOs c.os = true → (Mandate.ofPath path).allowsArch c.arch = true →
        c.admitsName path = true) ∧
      (c.OnKnownPlatform → c.NoPlatformTags → c.admitsName path = true →
        (Mandate.ofPath path).allowsOs c.os = true ∧
          (Mandate.ofPath path).allowsArch c.arch = true) :=
  ⟨admitsName_of_allows, fun hc hn hname => (admitsName_iff hc hn).1 hname⟩

/-- A name for `linux` admits `android` and allows it. -/
theorem admitsName_agrees_android :
    let c := Context.ofPlatform "android" "arm64"
    c.admitsName "a_linux_arm64.go" = true ∧
      (Mandate.ofPath "a_linux_arm64.go").allowsOs c.os = true ∧
      (Mandate.ofPath "a_linux_arm64.go").allowsArch c.arch = true := by
  intro c
  have hn : c.NoPlatformTags := ⟨by decide, by decide +kernel⟩
  have hname : c.admitsName "a_linux_arm64.go" = true :=
    admitsName_agrees.1 (by decide) (by decide)
  exact ⟨hname, admitsName_agrees.2 ⟨by decide, by decide⟩ hn hname⟩

end Context

end GoBuild
