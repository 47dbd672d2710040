import GoBuild.Context.Satisfies

/-!
# Which tags hold in a context

Some names hold in a context for what they mean (`reservedNames`). On a platform with known names,
every other tag than these and the name of the compiler holds exactly if it is in one of the sets of
tags (`Context.satisfies_eq_hasTag`). Tags of releases and of experiments are never reserved.
-/

namespace GoBuild

/-! ### Classes of names -/

/-- The names that can hold in a context without being in one of its sets of tags. -/
def reservedNames : List String :=
  knownOses ++ knownArches ++ [gcCompiler, gccgoCompiler, cgoTag, unixTag, boringcryptoTag]

theorem mem_reservedNames_iff {t : String} :
    t ∈ reservedNames ↔ isKnownOs t = true ∨ isKnownArch t = true ∨ isCompiler t = true ∨
      t = cgoTag ∨ t = unixTag ∨ t = boringcryptoTag := by
  simp [reservedNames, isKnownOs, isKnownArch, isCompiler, or_assoc]

theorem not_mem_reservedNames_of_isExperimentTag {t : String} (h : isExperimentTag t = true) :
    t ∉ reservedNames := by
  have hall : ∀ name ∈ reservedNames, isExperimentTag name = false := by decide
  intro hmem
  rw [hall t hmem] at h
  cases h

theorem not_mem_reservedNames_of_isReleaseTag {t : String} (h : isReleaseTag t = true) :
    t ∉ reservedNames := by
  have hall : ∀ name ∈ reservedNames, isReleaseTag name = false := by decide
  intro hmem
  rw [hall t hmem] at h
  cases h

theorem isReleaseTag_eq_false_of_isExperimentTag {t : String} (h : isExperimentTag t = true) :
    isReleaseTag t = false := by
  rw [← Bool.not_eq_true]
  intro hr
  unfold isReleaseTag at hr
  cases hd : Text.after? releaseMark t.toList with
  | none => rw [hd] at hr; cases hr
  | some digits =>
    rw [isExperimentTag, Text.after?_eq_some_iff.1 hd] at h
    simp [experimentMark, releaseMark] at h

/-- The name of a compiler means nothing else. -/
theorem isCompiler_disjoint {t : String} (h : isCompiler t = true) :
    isKnownOs t = false ∧ isKnownArch t = false ∧
      t ≠ cgoTag ∧ t ≠ unixTag ∧ t ≠ boringcryptoTag := by
  rw [isCompiler, Bool.or_eq_true, decide_eq_true_eq, decide_eq_true_eq] at h
  rcases h with rfl | rfl <;> decide

/-- The names of platforms, of operating systems and of architectures. -/
def platformNames : List String := knownOses ++ knownArches

theorem mem_platformNames_iff {t : String} :
    t ∈ platformNames ↔ isKnownOs t = true ∨ isKnownArch t = true := by
  simp [platformNames, isKnownOs, isKnownArch]

theorem ne_of_mem_platformNames {t : String} (h : t ∈ platformNames) :
    t ≠ cgoTag ∧ t ≠ unixTag ∧ t ≠ boringcryptoTag := by
  have hall : ∀ name ∈ platformNames,
      name ≠ cgoTag ∧ name ≠ unixTag ∧ name ≠ boringcryptoTag := by decide
  exact hall t h

theorem not_isKnownArch_of_isKnownOs {t : String} (h : isKnownOs t = true) :
    ¬ isKnownArch t = true := by
  have hall : ∀ os ∈ knownOses, ¬ isKnownArch os = true := by decide
  exact hall t (List.contains_iff_mem.1 h)

theorem isKnownOs_of_impliedOs? {os implied : String} (h : impliedOs? os = some implied) :
    isKnownOs implied = true := by
  have hall : ∀ p ∈ osImplications, isKnownOs p.2 = true := by decide
  obtain ⟨l₁, l₂, hl, -⟩ := List.lookup_eq_some_iff.1 h
  exact hall (os, implied) (by rw [hl]; simp)

theorem mem_acceptedOses_iff {os demanded : String} :
    os ∈ acceptedOses demanded ↔ os = demanded ∨ impliedOs? os = some demanded := by
  have himplied : ∀ p ∈ osImplications, impliedOs? p.1 = some p.2 := by decide
  simp only [acceptedOses, List.mem_cons, List.mem_map, List.mem_filter, decide_eq_true_eq]
  refine or_congr_right ⟨?_, fun h => ?_⟩
  · rintro ⟨p, ⟨hp, rfl⟩, rfl⟩
    exact himplied p hp
  · obtain ⟨l₁, l₂, hl, -⟩ := List.lookup_eq_some_iff.1 h
    exact ⟨(os, demanded), ⟨by rw [hl]; simp, rfl⟩, rfl⟩

namespace Context

/-- The operating system and the architecture have known names. -/
structure OnKnownPlatform (c : Context) : Prop where
  os : isKnownOs c.os = true
  arch : isKnownArch c.arch = true

/-! ### Tags that hold for what they mean, and the others -/

theorem satisfies_iff {c : Context} {t : String} :
    c.satisfies t = true ↔ (c.cgo = true ∧ t = cgoTag) ∨ (t = c.os ∨ t = c.arch ∨ t = c.compiler) ∨
      impliedOs? c.os = some t ∨ (c.knowsAliases = true ∧ t = unixTag ∧ isUnixOs c.os = true) ∨
      (c.knowsAliases = true ∧ t = boringcryptoTag ∧ c.hasTag boringcryptoExperiment = true) ∨
      c.hasTag t = true := by
  simp [satisfies, or_assoc, and_assoc]

/-- A name that means no platform and is none of the tags with a rule of their own holds if it is
that of the compiler or in one of the sets of tags. -/
theorem satisfies_eq_of_not_platform {c : Context} {t : String} (hc : c.OnKnownPlatform)
    (hos : isKnownOs t = false) (harch : isKnownArch t = false)
    (hrule : t ≠ cgoTag ∧ t ≠ unixTag ∧ t ≠ boringcryptoTag) :
    c.satisfies t = (t = c.compiler || c.hasTag t) := by
  obtain ⟨hcgo, hunix, hboring⟩ := hrule
  refine Bool.eq_iff_iff.2 (satisfies_iff.trans ⟨?_, ?_⟩)
  · rintro (⟨-, h⟩ | (h | h | h) | h | ⟨-, h, -⟩ | ⟨-, h, -⟩ | h)
    · exact absurd h hcgo
    · exact absurd (h ▸ hc.os) (by simp [hos])
    · exact absurd (h ▸ hc.arch) (by simp [harch])
    · simp [h]
    · exact absurd (isKnownOs_of_impliedOs? h) (by simp [hos])
    · exact absurd h hunix
    · exact absurd h hboring
    · simp [h]
  · intro h
    rw [Bool.or_eq_true, decide_eq_true_eq] at h
    rcases h with h | h <;> simp [h]

/-- A tag that is not reserved and does not name the compiler holds exactly if it is in one of the
sets of tags. -/
theorem satisfies_eq_hasTag {c : Context} {t : String} (hc : c.OnKnownPlatform)
    (ht : t ∉ reservedNames) (hcompiler : t ≠ c.compiler) : c.satisfies t = c.hasTag t := by
  simp only [mem_reservedNames_iff, not_or, Bool.not_eq_true] at ht
  rw [satisfies_eq_of_not_platform hc ht.1 ht.2.1 ht.2.2.2, decide_eq_false hcompiler, Bool.false_or]

/-- The name of a compiler holds if it is that of the context or in one of the sets of tags. -/
theorem satisfies_of_isCompiler {c : Context} {t : String} (hc : c.OnKnownPlatform)
    (ht : isCompiler t = true) : c.satisfies t = (t = c.compiler || c.hasTag t) := by
  obtain ⟨hos, harch, hrule⟩ := isCompiler_disjoint ht
  exact satisfies_eq_of_not_platform hc hos harch hrule

end Context

end GoBuild
